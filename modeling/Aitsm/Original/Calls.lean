import Aitsm.Original.Acknowledged

/-!
# What a call of the client gives back

Between the call of `aitsm_mqtt_publish_payload` and its return the message
stays the caller's (`carried`), whatever the other threads do, and the call ends
with exactly one answer (`Answers`). No other step hands out a token.
-/

namespace Aitsm.Original.Client

open Library Library.Wire
open Library.System (anyStep)

variable {cfg : ClientConfig} {c c' : Client} {es : List Event}

/-- The caller is inside `aitsm_mqtt_publish_payload`. -/
def Caller.publishing : Caller → Bool
  | .publishLte _ | .publishConnected _ | .publishTake _ | .publishActive _ | .publishRelease
  | .publishCopy _ | .publishGeneration | .publishToken | .publishSubmit
  | .publishNotSubmitted _ => true
  | _ => false

/-- The message it was called with, as long as it may still accept it. -/
def carried (c : Client) : Option Message :=
  match c.caller with
  | .publishLte m | .publishConnected m | .publishTake m | .publishActive m | .publishCopy m =>
    some m
  | .publishGeneration | .publishToken | .publishSubmit => some c.message
  | _ => none

/-- The answer of `aitsm_mqtt_publish_payload`. -/
def Event.isAnswer : Event → Bool
  | .accepted _ _ | .refused _ _ => true
  | _ => false

/-- A step ends a publish call exactly when it reports its answer. -/
structure Answers (c c' : Client) (es : List Event) : Prop where
  stays : c'.caller.publishing → c.caller.publishing
  ends : c.caller.publishing → c'.caller.publishing = !es.any Event.isAnswer
  silent : c.caller.publishing = false → es.any Event.isAnswer = false
  carried : c'.carried = c.carried ∨ c'.carried = none
  accepted : ∀ serial m, .accepted serial m ∈ es → c.carried = some m
  numbered : c.caller.publishing = false → c'.nextPublishToken = c.nextPublishToken

namespace Answers

/-- The other threads leave the call alone. -/
theorem of_frame (h : OtherCaller c c' es) : Answers c c' es := by
  have hsilent : es.any Event.isAnswer = false := by
    refine List.any_eq_false.mpr fun e he => ?_
    have := h.silent e he
    cases e <;> first | exact Bool.false_ne_true | cases this
  have hcarried : c'.carried = c.carried := by
    rw [Client.carried, Client.carried, h.caller, h.message]
  refine ⟨fun hp => h.caller ▸ hp, fun hp => ?_, fun _ => hsilent, .inl hcarried, ?_,
    fun _ => h.nextPublishToken⟩
  · rw [h.caller, hp, hsilent]
    rfl
  · intro serial m hm
    cases h.silent _ hm

/-- The call goes on. -/
theorem goesOn (hp : c.caller.publishing) (hp' : c'.caller.publishing)
    (hcarried : c'.carried = c.carried ∨ c'.carried = none) : Answers c c' [] where
  stays _ := hp
  ends _ := hp'
  silent h := absurd hp (by simp [h])
  carried := hcarried
  accepted _ _ hm := absurd hm List.not_mem_nil
  numbered h := absurd hp (by simp [h])

/-- The call is refused. -/
theorem refused {err : Errno} {serial : Option ℕ} (hp : c.caller.publishing)
    (hp' : c'.caller.publishing = false) (hcarried : c'.carried = none) :
    Answers c c' [.refused err serial] where
  stays _ := hp
  ends _ := hp'
  silent h := absurd hp (by simp [h])
  carried := .inr hcarried
  accepted := by simp
  numbered h := absurd hp (by simp [h])

/-- Another call. -/
theorem elsewhere (hp : c.caller.publishing = false) (hp' : c'.caller.publishing = false)
    (hes : es.any Event.isAnswer = false) (hcarried : c'.carried = none)
    (hnumbered : c'.nextPublishToken = c.nextPublishToken) : Answers c c' es where
  stays h := absurd hp' (by simp [h])
  ends h := absurd hp (by simp [h])
  silent _ := hes
  carried := .inr hcarried
  accepted _ _ hm := absurd (List.any_eq_false.mp hes _ hm) (by simp [Event.isAnswer])
  numbered _ := hnumbered

theorem callerStep (h : c.callerStep = some (c', es)) : Answers c c' es := by
  cases hc : c.caller <;> simp only [Client.callerStep, hc] at h
  case idle => cases h
  case publishLte m | publishConnected m | publishTake m | publishActive m =>
    have hp : c.caller.publishing := by rw [hc]; rfl
    have hcarried : c.carried = some m := by rw [Client.carried, hc]
    split at h <;> cases h
    all_goals first
      | exact goesOn hp rfl (.inl hcarried.symm)
      | exact goesOn hp rfl (.inr rfl)
      | exact refused hp rfl rfl
  case publishCopy m =>
    cases h
    have hcarried : c.carried = some m := by rw [Client.carried, hc]
    exact goesOn (by rw [hc]; rfl) rfl (.inl hcarried.symm)
  case publishGeneration | publishToken =>
    cases h
    have hcarried : c.carried = some c.message := by rw [Client.carried, hc]
    exact goesOn (by rw [hc]; rfl) rfl (.inl hcarried.symm)
  case publishRelease | publishNotSubmitted =>
    cases h
    exact refused (by rw [hc]; rfl) rfl rfl
  case publishSubmit =>
    cases h
    have hp : c.caller.publishing := by rw [hc]; rfl
    have hcarried : c.carried = some c.message := by rw [Client.carried, hc]
    have hidle (job : Job) : ({ c with caller := .idle }.submit job).caller = .idle := by
      rw [submit]
      split <;> rfl
    refine ⟨fun _ => hp, fun _ => ?_, fun hp' => absurd hp (by simp [hp']), .inr ?_, ?_,
      fun hp' => absurd hp (by simp [hp'])⟩
    · rw [hidle]
      rfl
    · rw [Client.carried, hidle]
    · rintro serial m hm
      cases List.mem_singleton.mp hm
      exact hcarried
  case connectSubmit | disconnectSubmit =>
    cases h
    refine elsewhere (by rw [hc]; rfl) ?_ rfl ?_ ?_ <;> rw [submit] <;> split <;> rfl
  case invalidate =>
    split at h <;> cases h
    exact elsewhere (by rw [hc]; rfl) rfl rfl rfl rfl
  case connectNotSubmitted | lteSet =>
    cases h
    exact elsewhere (by rw [hc]; rfl) rfl rfl rfl rfl
  case connectLte | connectConnected | connectTake | lteClear =>
    split at h <;> cases h
    all_goals exact elsewhere (by rw [hc]; rfl) rfl rfl rfl rfl

theorem step {a : Action} (ha : ∀ m, a ≠ .callPublish m) (h : c.step cfg a = some (c', es)) :
    Answers c c' es := by
  cases hcaller : a.isCaller with
  | false => exact of_frame (OtherCaller.step hcaller h)
  | true =>
    cases a with
    | callPublish m => exact absurd rfl (ha m)
    | caller => exact callerStep h
    | callerNoSubmit err =>
      obtain ⟨hc, rfl, rfl⟩ | ⟨hc, rfl, rfl⟩ | ⟨hc, rfl, rfl⟩ := callerNoSubmit_cases h
      · exact goesOn (by rw [hc]; rfl) rfl (.inr rfl)
      · exact elsewhere (by rw [hc]; rfl) rfl rfl rfl rfl
      · exact elsewhere (by rw [hc]; rfl) rfl rfl rfl rfl
    | callConnect | callDisconnect =>
      obtain ⟨hidle, ⟨⟩⟩ := call_eq_some h
      exact elsewhere (by rw [hidle]; rfl) rfl rfl rfl rfl
    | callSetLteAvailable available =>
      obtain ⟨hidle, ⟨⟩⟩ := call_eq_some h
      cases available
      all_goals exact elsewhere (by rw [hidle]; rfl) rfl rfl rfl rfl
    | _ => cases hcaller

end Answers

/-- Only the last step of a publish call accepts a message. -/
theorem accepted_step {a : Action} {serial : ℕ} {m : Message} (h : c.step cfg a = some (c', es))
    (hm : .accepted serial m ∈ es) :
    a = .caller ∧ c.caller = .publishSubmit ∧ c' = { c with caller := .idle }.submit .publish ∧
      es = [.accepted c.publishToken c.message] := by
  cases hcaller : a.isCaller with
  | false => cases (OtherCaller.step hcaller h).silent _ hm
  | true =>
    cases a with
    | caller =>
      cases hc : c.caller <;> simp only [step, callerStep, hc] at h
      case publishSubmit =>
        cases h
        exact ⟨rfl, rfl, rfl, rfl⟩
      all_goals try split at h
      all_goals cases h
      all_goals simp at hm
    | callPublish m' =>
      obtain ⟨-, hstart⟩ := call_eq_some h
      obtain ⟨err, herr⟩ := callPublish_events cfg c m' _ (by rw [hstart]; exact hm)
      cases herr
    | callConnect | callDisconnect | callSetLteAvailable =>
      obtain ⟨-, ⟨⟩⟩ := call_eq_some h
      cases hm
    | callerNoSubmit err =>
      obtain ⟨-, rfl, -⟩ | ⟨-, rfl, -⟩ | ⟨-, rfl, -⟩ := callerNoSubmit_cases h
      all_goals simp at hm
    | _ => cases hcaller

/-- It ends the call that brought the message. -/
theorem carried_of_accepted {a : Action} {serial : ℕ} {m : Message}
    (h : c.step cfg a = some (c', es)) (hm : .accepted serial m ∈ es) : c.carried = some m := by
  obtain ⟨-, hcaller, -, rfl⟩ := accepted_step h hm
  obtain ⟨-, rfl⟩ := Event.accepted.inj (List.mem_singleton.mp hm)
  rw [carried, hcaller]

end Aitsm.Original.Client
