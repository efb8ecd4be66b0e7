import Aitsm.Original.Completion

/-!
# Every retransmission repeats the first write

All writes of one publication carry the same message id and the message that was
accepted; only the first has DUP clear, and the wait armed after each write is
twice the one before, up to the configured maximum. For this it is enough to
count the writes of the token under way: `Sent` says what the variables are
after `n` of them. Where the message and its generation come from is read off
the step that accepted it (`AcceptedAt`).
-/

namespace Aitsm.Original.Client

open Library Library.Wire
open Library.System (anyStep Step reports)

variable {cfg : ClientConfig} {c c' : Client} {es : List Event}

/-- The wait for the PUBACK after `k` retransmissions. -/
def retryDelay (cfg : ClientConfig) (k : ℕ) : ℕ :=
  min (cfg.pubackTimeoutSeconds * 2 ^ k) cfg.pubackMaxDelaySeconds

theorem retryDelay_zero (h : cfg.pubackTimeoutSeconds ≤ cfg.pubackMaxDelaySeconds) :
    retryDelay cfg 0 = cfg.pubackTimeoutSeconds := by
  rw [retryDelay, Nat.pow_zero, Nat.mul_one, Nat.min_eq_left h]

theorem retryDelay_succ (k : ℕ) :
    min (retryDelay cfg k * 2) cfg.pubackMaxDelaySeconds = retryDelay cfg (k + 1) := by
  have hpow : cfg.pubackTimeoutSeconds * 2 ^ (k + 1) = cfg.pubackTimeoutSeconds * 2 ^ k * 2 := by
    rw [Nat.pow_succ, Nat.mul_assoc]
  unfold retryDelay
  rw [hpow]
  omega

/-- The message id of the publication under way, once it was written; 0 if there
is none. -/
def Worker.current (active : UInt16) : Worker → UInt16
  | .send w => if w.duplicate then w.id else 0
  | .sending w | .sent w _ | .timeoutLte w | .timeoutConnected w | .timeoutGeneration w => w.id
  | .timeoutPublishGeneration id | .timeoutToken id _ => id
  | _ => active

/-- A publication whose id is taken is under way only in the worker's hands. -/
theorem Worker.current_cleared (x : Worker) (active : UInt16) (h : x.current 0 ≠ 0) :
    x.current 0 = x.current active := by
  cases x <;> first | rfl | exact absurd rfl h

/-- The worker is about to write. -/
def Worker.sends : Worker → Option Write
  | .send w => some w
  | _ => none

theorem Worker.current_of_owns {x : Worker} {active : UInt16} (h : x.owns = false) :
    x.current active = active := by
  cases x <;> first | rfl | cases h

theorem Worker.sends_of_owns {x : Worker} (h : x.owns = false) : x.sends = none := by
  cases x <;> first | rfl | cases h

@[inherit_doc Worker.current]
def current (c : Client) : UInt16 := c.worker.current c.activePublishId

theorem current_eq {x : Worker} (hw : c.worker = x) : c.current = x.current c.activePublishId := by
  rw [current, hw]

/-- The variables after the message under way was written `n` times, under the id `i`. -/
structure Sent (cfg : ClientConfig) (c : Client) (n : ℕ) (i : UInt16) : Prop where
  unsent : c.unsent → n = 0
  first : ∀ w, c.worker.sends = some w → w.duplicate = false → n = 0
  next : c.worker.sends ≠ none → c.pubackDelaySeconds = retryDelay cfg n
  current : c.current ≠ 0 → c.current = i ∧ n ≠ 0
  delay : c.current ≠ 0 → c.worker.sends = none → ∀ k, n = k + 1 →
    c.pubackDelaySeconds = retryDelay cfg k

/-- The step brings no write and no new publication. -/
structure Keeps (c c' : Client) : Prop where
  unsent : c'.unsent → c.unsent
  sends : c'.worker.sends = c.worker.sends
  current : c'.current ≠ 0 → c'.current = c.current
  delay : c'.pubackDelaySeconds = c.pubackDelaySeconds
  token : c'.publishToken = c.publishToken

theorem Sent.keep {n : ℕ} {i : UInt16} (hn : Sent cfg c n i) (hk : Keeps c c') :
    Sent cfg c' n i := by
  refine ⟨fun h => hn.unsent (hk.unsent h), fun w hw => hn.first w (hk.sends ▸ hw), fun h => ?_,
    fun h => ?_, fun h hs => ?_⟩
  · rw [hk.delay, hn.next (hk.sends ▸ h)]
  · have hsame := hk.current h
    rw [hsame] at h ⊢
    exact hn.current h
  · rw [hk.current h] at h
    rw [hk.delay]
    exact hn.delay h (hk.sends ▸ hs)

namespace Keeps

/-- A step of another thread can only clear the id and queue the publication. -/
theorem of_frame (h : OtherWorker c c' es)
    (hcaller : c'.caller = .publishSubmit → c.caller = .publishSubmit)
    (htoken : c'.publishToken = c.publishToken) : Keeps c c' := by
  refine ⟨?_, by rw [h.worker], fun hne => ?_, h.pubackDelaySeconds, htoken⟩
  · rintro (hqueued | hpublish | hsubmit)
    · exact (h.publish hqueued).imp_right .inr
    · exact .inr (.inl (h.worker ▸ hpublish))
    · exact .inr (.inr (hcaller hsubmit))
  · rw [Client.current, h.worker] at hne ⊢
    rw [Client.current]
    rcases h.activePublishId with hsame | hzero
    · rw [hsame]
    · rw [hzero] at hne ⊢
      exact Worker.current_cleared _ _ hne

theorem callerStep (hcaller : c.caller ≠ .publishToken) (h : c.callerStep = some (c', es)) :
    Keeps c c' := by
  obtain ⟨htoken, hsubmit⟩ := (callerStep_writes h).1.resolve_left hcaller
  exact of_frame (OtherWorker.callerStep h) (fun hs => absurd hs hsubmit) htoken

/-- The worker moves on, and the publication it has in hand stays the same. -/
theorem withWorker (hx : c'.worker ≠ .publish) (hsends : c'.worker.sends = c.worker.sends)
    (hcurrent : c'.current ≠ 0 → c'.current = c.current)
    (hqueue : .publish ∈ c'.queue → .publish ∈ c.queue := by exact fun h => h)
    (hcaller : c'.caller = c.caller := by rfl)
    (hdelay : c'.pubackDelaySeconds = c.pubackDelaySeconds := by rfl)
    (htoken : c'.publishToken = c.publishToken := by rfl) : Keeps c c' := by
  refine ⟨?_, hsends, hcurrent, hdelay, htoken⟩
  rintro (hqueued | hpublish | hsubmit)
  · exact .inl (hqueue hqueued)
  · exact absurd hpublish hx
  · exact .inr (.inr (hcaller ▸ hsubmit))

theorem take {job : Job} {rest : List Job} (hw : c.worker = .idle)
    (hq : c.queue = job :: rest) :
    Keeps c { c with worker := job.handler, queue := rest } := by
  have hcurrent : Client.current { c with worker := job.handler, queue := rest } = c.current := by
    rw [Client.current, Client.current, hw]
    cases job <;> rfl
  refine ⟨?_, ?_, fun _ => hcurrent, rfl, rfl⟩
  · rintro (hqueued | hpublish | hsubmit)
    · exact .inl (hq ▸ List.mem_cons_of_mem _ hqueued)
    · rw [Job.handler_publish hpublish] at hq
      exact .inl (hq ▸ List.mem_cons_self)
    · exact .inr (.inr hsubmit)
  · rw [hw]
    cases job <;> rfl

/-- `publish_sent` clears the id or leaves it. -/
theorem publishSent (hu : UnderWay c) {w : Write} {err : ℤ} (hw : c.worker = .sent w err) :
    Keeps c (c.publishSent w err).1 := by
  have hactive := (hu.write w (by rw [hw]; rfl)).2.2.2
  have hcurrent : c.current = w.id := current_eq hw
  rw [Client.publishSent]
  split
  · exact withWorker (by simp [cancelTimeout]) (by rw [hw]; rfl) (fun hne => absurd rfl hne)
      List.mem_of_mem_filter
  split
  · exact withWorker (by simp) (by rw [hw]; rfl)
      (fun hne => hcurrent ▸ hactive.resolve_left hne)
  · exact withWorker (by simp) (by rw [hw]; rfl)
      (fun hne => hcurrent ▸ hactive.resolve_left hne)

theorem workerStep (hu : UnderWay c) (hworker : ∀ w, c.worker ≠ .timeoutGeneration w)
    (h : c.workerStep cfg = some (c', es)) : Keeps c c' := by
  cases hw : c.worker <;> simp only [Client.workerStep, hw] at h
  case idle =>
    split at h <;> cases h
    exact take hw ‹_›
  case sent w err =>
    split at h
    · cases h
    · obtain rfl := congrArg Prod.fst (Option.some.inj h)
      exact publishSent hu hw
  case timeoutToken id g =>
    split at h <;> rename_i hid <;> cases h
    · have hinactive : c.activePublishId = 0 := hu.unread (by rw [hw, hid]; rfl)
      exact withWorker (by simp) (by rw [hw]; rfl) fun hne => absurd hinactive hne
    · exact withWorker (by simp) (by rw [hw]; rfl) fun _ => (current_eq hw).symm
  case timeoutLte w | timeoutConnected w =>
    have hactive := (hu.write w (by rw [hw]; rfl)).2.2.2
    have hcurrent : c.current = w.id := current_eq hw
    split at h <;> cases h
    · exact withWorker (by simp) (by rw [hw]; rfl) fun _ => hcurrent.symm
    · exact withWorker (by simp) (by rw [hw]; rfl) fun hne => hcurrent ▸ hactive.resolve_left hne
  case timeoutGeneration w => exact absurd hw (hworker w)
  case onDisconnect x =>
    cases x <;> simp only at h
    case connected =>
      split at h <;> cases h
      exact withWorker (by simp [closeConnected]) (by rw [hw]; rfl) fun _ => (current_eq hw).symm
    case publish =>
      cases h
      exact withWorker (by simp [closePublish, cancelTimeout]) (by rw [hw]; rfl)
        (fun hne => absurd rfl hne) List.mem_of_mem_filter
    case pending | post =>
      cases h
      exact withWorker (by simp) (by rw [hw]; rfl) fun _ => (current_eq hw).symm
  case publish =>
    split at h <;> try split at h
    all_goals cases h
    exact withWorker (by simp) (by rw [hw]; rfl) fun _ => (current_eq hw).symm
  case connectHelper | send | sending => cases h
  case connectRelease | connectGeneration | connectSetGeneration | connectFailed | connectPostError
      | release | postFailed | timeoutId | timeoutPublishGeneration =>
    cases h
    exact withWorker (by simp) (by rw [hw]; rfl) fun _ => (current_eq hw).symm
  all_goals
    split at h <;> cases h
    all_goals exact withWorker (by simp) (by rw [hw]; rfl) fun _ => (current_eq hw).symm

/-- The actions of the other threads, and the return of a write. -/
theorem step {a : Action} (hcaller : a ≠ .caller) (hworker : a ≠ .worker)
    (hid : ∀ id, a ≠ .workerMessageId id) (hwrite : ∀ t, a ≠ .workerWrite t)
    (h : c.step cfg a = some (c', es)) : Keeps c c' := by
  cases hc : a.isCaller with
  | true =>
    obtain ⟨htoken, hsubmit, -⟩ := call_writes hc hcaller h
    exact of_frame (OtherWorker.step (Action.isWorker_of_isCaller hc) h)
      (fun hs => absurd hs hsubmit) htoken
  | false =>
    have hframe := OtherCaller.step hc h
    cases hw : a.isWorker with
    | false =>
      exact of_frame (OtherWorker.step hw h) (fun hs => hframe.caller ▸ hs) hframe.publishToken
    | true =>
      cases a with
      | worker => exact absurd rfl hworker
      | workerMessageId id => exact absurd rfl (hid id)
      | workerWrite t => exact absurd rfl (hwrite t)
      | workerConnect failed =>
        obtain ⟨g, hw, -, rfl | ⟨-, rfl⟩⟩ := workerConnect_cases h
        all_goals exact withWorker (by simp) (by rw [hw]; rfl) fun _ => (current_eq hw).symm
      | workerSent err =>
        obtain ⟨w, hw, -, rfl⟩ := workerSent_cases h
        exact withWorker (by simp) (by rw [hw]; rfl) fun _ => (current_eq hw).symm
      | _ => cases hw

end Keeps

/-! ## One step -/

/-- The publish job is queued or has just been taken. -/
def publishQueued (c : Client) : Prop := .publish ∈ c.queue ∨ c.worker = .publish

/-- What a step can do to the publication under way. -/
structure Effect (cfg : ClientConfig) (c : Client) (a : Action) (c' : Client) (es : List Event) :
    Prop where
  written : ∀ w m t, .written w m t ∈ es →
    a = .workerWrite t ∧ c.worker = .send w ∧ m = c.message
  armed : ∀ seconds, .armed seconds ∈ es →
    seconds = c.pubackDelaySeconds ∧ ∃ w, c.worker = .sent w 0
  accepted : ∀ serial m, .accepted serial m ∈ es → c'.publishQueued
  token : a ≠ .caller → c'.publishToken = c.publishToken
  generation : c.generation ≤ c'.generation
  publishGeneration : c'.publishGeneration = c.publishGeneration ∨
    c.caller = .publishGeneration ∧ (c'.inUse → c.inUse)
  chosen : c.publishQueued → c.activePublishId = 0 → c'.inUse →
    c'.publishQueued ∨ c'.generation = c'.publishGeneration
  send : ∀ w, c'.worker = .send w → c.worker = .send w ∨ c'.generation = w.generation
  sending : ∀ w, c.worker = .sending w → c'.worker.write = some w
  delay : cfg.pubackTimeoutSeconds ≤ cfg.pubackMaxDelaySeconds →
    c.pubackDelaySeconds ≤ cfg.pubackMaxDelaySeconds →
    c'.pubackDelaySeconds ≤ cfg.pubackMaxDelaySeconds

theorem publishQueued_submit (c : Client) : (c.submit .publish).publishQueued := by
  rw [submit]
  split
  · exact .inl ‹_›
  · exact .inl (List.mem_append_right _ List.mem_cons_self)

theorem accepted_queued {a : Action} {serial : ℕ} {m : Message}
    (h : c.step cfg a = some (c', es)) (hm : .accepted serial m ∈ es) : c'.publishQueued := by
  obtain ⟨-, -, rfl, -⟩ := accepted_step h hm
  exact publishQueued_submit _

namespace Effect

variable {a : Action}

/-- A step of another thread than the worker writes nothing. -/
theorem otherWorker (h : OtherWorker c c' es)
    (haccepted : ∀ serial m, .accepted serial m ∈ es → c'.publishQueued)
    (htoken : a ≠ .caller → c'.publishToken = c.publishToken)
    (hgeneration : c'.publishGeneration = c.publishGeneration ∨
      c.caller = .publishGeneration ∧ (c'.inUse → c.inUse)) : Effect cfg c a c' es where
  written _ _ _ hm := by cases h.silent _ hm
  armed _ hm := by cases h.silent _ hm
  accepted := haccepted
  token := htoken
  generation := h.generation.le
  publishGeneration := hgeneration
  chosen hq _ _ := .inl (hq.imp (h.queue _ (by simp)) h.worker.trans)
  send w hw := .inl (h.worker ▸ hw)
  sending w hw := by rw [h.worker, hw]; rfl
  delay _ hle := h.pubackDelaySeconds ▸ hle

/-- A step of the worker neither accepts nor numbers anything. -/
theorem otherCaller (h : OtherCaller c c' es)
    (hwritten : ∀ w m t, .written w m t ∈ es →
      a = .workerWrite t ∧ c.worker = .send w ∧ m = c.message)
    (harmed : ∀ seconds, .armed seconds ∈ es →
      seconds = c.pubackDelaySeconds ∧ ∃ w, c.worker = .sent w 0)
    (hchosen : c.publishQueued → c.activePublishId = 0 → c'.inUse →
      c'.publishQueued ∨ c'.generation = c'.publishGeneration)
    (hsend : ∀ w, c'.worker = .send w → c.worker = .send w ∨ c'.generation = w.generation)
    (hsending : ∀ w, c.worker = .sending w → c'.worker.write = some w)
    (hdelay : cfg.pubackTimeoutSeconds ≤ cfg.pubackMaxDelaySeconds →
      c.pubackDelaySeconds ≤ cfg.pubackMaxDelaySeconds →
      c'.pubackDelaySeconds ≤ cfg.pubackMaxDelaySeconds) : Effect cfg c a c' es where
  written := hwritten
  armed := harmed
  accepted _ _ hm := by cases h.silent _ hm
  token _ := h.publishToken
  generation := h.generation.le
  publishGeneration := .inl h.publishGeneration
  chosen := hchosen
  send := hsend
  sending := hsending
  delay := hdelay

/-- The worker moves on with a publication that was chosen before. -/
theorem withWorker (h : OtherCaller c c' es) (hw : c.worker ≠ .publish)
    (hsend : ∀ w, c'.worker ≠ .send w)
    (hsending : ∀ w, c.worker = .sending w → c'.worker.write = some w)
    (hwritten : ∀ w m t, .written w m t ∈ es →
      a = .workerWrite t ∧ c.worker = .send w ∧ m = c.message)
    (harmed : ∀ seconds, .armed seconds ∈ es →
      seconds = c.pubackDelaySeconds ∧ ∃ w, c.worker = .sent w 0)
    (hqueue : .publish ∈ c.queue → .publish ∈ c'.queue := by exact fun h => h)
    (hdelay : c'.pubackDelaySeconds = c.pubackDelaySeconds := by rfl) : Effect cfg c a c' es :=
  otherCaller h hwritten harmed (fun hq _ _ => .inl (hq.imp hqueue fun hp => absurd hp hw))
    (fun w hx => absurd hx (hsend w)) hsending fun _ hle => hdelay ▸ hle

theorem caller (h : c.callerStep = some (c', es)) : Effect cfg c .caller c' es := by
  have hstep : c.step cfg .caller = some (c', es) := h
  refine otherWorker (OtherWorker.callerStep h) (fun _ _ => accepted_queued hstep)
    (fun hne => absurd rfl hne) ?_
  rcases (callerStep_writes h).2 with hc | hsame
  · simp only [Client.callerStep, hc] at h
    cases h
    exact .inr ⟨hc, fun huse => huse⟩
  · exact .inl hsame

theorem take {job : Job} {rest : List Job} (hw : c.worker = .idle) (hq : c.queue = job :: rest) :
    Effect cfg c .worker { c with worker := job.handler, queue := rest } [] := by
  refine otherCaller (.of_eq (.inl rfl)) (by simp) (by simp) (fun hqueued _ _ => .inl ?_)
    (fun w hx => by cases job <;> cases hx) (by simp [hw]) fun _ hle => hle
  rcases hqueued with hmem | hpublish
  · rw [hq] at hmem
    rcases List.mem_cons.mp hmem with rfl | hmem
    · exact .inr rfl
    · exact .inl hmem
  · cases hw.symm.trans hpublish

theorem publishSent {w : Write} {err : ℤ} (hw : c.worker = .sent w err) :
    Effect cfg c .worker (c.publishSent w err).1 (c.publishSent w err).2 := by
  rw [Client.publishSent]
  split
  · exact withWorker (.of_eq (.inl rfl)) (by simp [hw]) (by simp [cancelTimeout]) (by simp [hw])
      (by simp) (by simp) fun hmem => List.mem_filter.mpr ⟨hmem, by simp⟩
  split
  · rename_i hsent
    refine withWorker (.of_eq (.inl rfl)) (by simp [hw]) (by simp) (by simp [hw]) (by simp)
      fun seconds hm => ?_
    obtain rfl := Event.armed.inj (List.mem_singleton.mp hm)
    exact ⟨rfl, w, by rw [hw, hsent.1]⟩
  · exact withWorker (.of_eq (.inl rfl)) (by simp [hw]) (by simp) (by simp [hw]) (by simp)
      (by simp)

theorem worker (h : c.workerStep cfg = some (c', es)) : Effect cfg c .worker c' es := by
  have hframe := OtherCaller.workerStep h
  cases hw : c.worker <;> simp only [Client.workerStep, hw] at h
  case idle =>
    split at h <;> cases h
    exact take hw ‹_›
  case sent w err =>
    split at h
    · cases h
    · obtain ⟨rfl, rfl⟩ := Prod.mk.inj (Option.some.inj h)
      exact publishSent hw
  case timeoutGeneration w =>
    split at h <;> cases h
    · refine otherCaller hframe (by simp) (by simp)
        (fun hq _ _ => .inl (hq.imp_right fun hp => ?_)) (fun w' hx => .inr ?_) (by simp [hw])
        fun _ _ => Nat.min_le_right _ _
      · cases hw.symm.trans hp
      · obtain rfl := Worker.send.inj hx
        exact Eq.symm ‹_›
    · exact withWorker hframe (by simp [hw]) (by simp) (by simp [hw]) (by simp) (by simp)
  case publish =>
    split at h <;> try split at h
    all_goals cases h
    refine otherCaller hframe (by simp) (by simp) (fun _ hactive huse => .inl ?_) (by simp)
      (by simp [hw]) fun _ hle => hle
    rcases huse with hq | hp | ha | hwrite | ⟨id, hreading, -⟩
    · exact .inl hq
    · exact .inr hp
    · exact absurd hactive ha
    · exact absurd rfl hwrite
    · cases hreading
  case onDisconnect x =>
    cases x <;> simp only at h
    case connected =>
      split at h <;> cases h
      exact withWorker hframe (by simp [hw]) (by simp [closeConnected]) (by simp [hw]) (by simp)
        (by simp)
    case publish =>
      cases h
      exact withWorker hframe (by simp [hw]) (by simp [closePublish, cancelTimeout])
        (by simp [hw]) (by simp) (by simp) fun hmem => List.mem_filter.mpr ⟨hmem, by simp⟩
    case pending | post =>
      cases h
      exact withWorker hframe (by simp [hw]) (by simp) (by simp [hw]) (by simp) (by simp)
  case connectHelper | send | sending => cases h
  case connectRelease | connectGeneration | connectSetGeneration | connectFailed | connectPostError
      | release | postFailed | timeoutId | timeoutPublishGeneration =>
    cases h
    exact withWorker hframe (by simp [hw]) (by simp) (by simp [hw]) (by simp) (by simp)
  all_goals
    split at h <;> cases h
    all_goals exact withWorker hframe (by simp [hw]) (by simp) (by simp [hw]) (by simp) (by simp)

theorem step (h : c.step cfg a = some (c', es)) : Effect cfg c a c' es := by
  cases hc : a.isCaller with
  | true =>
    by_cases ha : a = .caller
    · subst ha
      exact caller h
    · obtain ⟨htoken, -, hgeneration⟩ := call_writes hc ha h
      exact otherWorker (OtherWorker.step (Action.isWorker_of_isCaller hc) h)
        (fun _ _ => accepted_queued h) (fun _ => htoken) (.inl hgeneration)
  | false =>
    have hframe := OtherCaller.step hc h
    cases hworker : a.isWorker with
    | false =>
      exact otherWorker (OtherWorker.step hworker h) (fun _ _ => accepted_queued h)
        (fun _ => hframe.publishToken) (.inl hframe.publishGeneration)
    | true =>
      cases a with
      | worker => exact worker h
      | workerConnect failed =>
        obtain ⟨g, hw, rfl, rfl | ⟨-, rfl⟩⟩ := workerConnect_cases h
        all_goals
          exact withWorker hframe (by simp [hw]) (by simp) (by simp [hw]) (by simp) (by simp)
      | workerMessageId id =>
        obtain ⟨hw, rfl, ⟨-, -, hgeneration, -, -⟩, rfl⟩ := workerMessageId_cases h
        refine otherCaller hframe (by simp) (by simp) (fun _ _ _ => .inr hgeneration.symm)
          (fun w hx => .inr ?_) (by simp [hw]) fun hT _ => hT
        obtain rfl := Worker.send.inj hx
        exact hgeneration.symm
      | workerWrite transmitted =>
        obtain ⟨w, hw, rfl, rfl⟩ := workerWrite_cases h
        refine withWorker hframe (by simp [hw]) (by simp) (by simp [hw]) (fun w' m t hm => ?_)
          (by simp)
        obtain ⟨rfl, rfl, rfl⟩ := Event.written.inj (List.mem_singleton.mp hm)
        exact ⟨rfl, hw, rfl⟩
      | workerSent err =>
        obtain ⟨w, hw, rfl, rfl⟩ := workerSent_cases h
        refine withWorker hframe (by simp [hw]) (by simp) (fun w' hw' => ?_) (by simp) (by simp)
        obtain rfl := Worker.sending.inj (hw.symm.trans hw')
        rfl
      | _ => cases hworker

end Effect

namespace Sent

variable {n : ℕ} {i : UInt16}

/-- A new token has not been written yet. -/
theorem publishToken (ho : Owned c) (hcaller : c.caller = .publishToken)
    (h : c.callerStep = some (c', es)) : Sent cfg c' 0 i := by
  have hactive : c.activePublishId = 0 := by
    by_contra ha
    have := (ho.active ha).1
    rw [hcaller] at this
    cases this
  have hworker := (ho.caller (by rw [hcaller]; rfl)).2
  have hcurrent : c.current = 0 := by rw [Client.current, Worker.current_of_owns hworker, hactive]
  have hsends := Worker.sends_of_owns hworker
  simp only [Client.callerStep, hcaller] at h
  obtain ⟨rfl, rfl⟩ := Prod.mk.inj (Option.some.inj h)
  exact ⟨fun _ => rfl, fun _ _ _ => rfl, fun h => absurd hsends h, fun h => absurd hcurrent h,
    fun h => absurd hcurrent h⟩

/-- The publish job has set the first wait. -/
theorem messageId {id : UInt16} (hT : cfg.pubackTimeoutSeconds ≤ cfg.pubackMaxDelaySeconds)
    (hn : Sent cfg c n i) (h : c.workerMessageId cfg id = some (c', es)) : Sent cfg c' n i := by
  obtain ⟨hw, -, -, rfl⟩ := workerMessageId_cases h
  obtain rfl := hn.unsent (.inr (.inl hw))
  exact ⟨fun _ => rfl, fun _ _ _ => rfl, fun _ => (retryDelay_zero hT).symm,
    fun h => absurd rfl h, fun h => absurd rfl h⟩

/-- The timeout handler has doubled the wait. -/
theorem retry {w : Write} (hu : UnderWay c) (hn : Sent cfg c n i)
    (hw : c.worker = .timeoutGeneration w) (h : c.workerStep cfg = some (c', es)) :
    Sent cfg c' n i := by
  obtain ⟨hid, -, -, hactive⟩ := hu.write w (by rw [hw]; rfl)
  have hcurrent : c.current = w.id := current_eq hw
  simp only [Client.workerStep, hw] at h
  split at h <;> cases h
  · have hduplicate := hu.retry w (by rw [hw]; rfl)
    have hunder : c.current ≠ 0 := by rw [hcurrent]; exact hid
    obtain ⟨hi, hpos⟩ := hn.current hunder
    obtain ⟨k, rfl⟩ := Nat.exists_eq_succ_of_ne_zero hpos
    have hdelay := hn.delay hunder (by rw [hw]; rfl) k rfl
    refine ⟨fun hunsent => ?_, fun w' hw' hfirst => ?_, fun _ => ?_, fun h => ?_,
      fun _ hs => absurd hs (Option.some_ne_none _)⟩
    · rcases hunsent with hq | hpublish | hsubmit
      · exact hn.unsent (.inl hq)
      · cases hpublish
      · exact hn.unsent (.inr (.inr hsubmit))
    · obtain rfl := Option.some.inj hw'
      exact absurd hduplicate (by simp [hfirst])
    · dsimp only
      rw [hdelay]
      exact retryDelay_succ k
    · refine ⟨?_, hpos⟩
      simp only [Client.current, Worker.current, hduplicate, if_true]
      exact hcurrent.symm.trans hi
  · refine hn.keep (.withWorker (by simp) (by rw [hw]; rfl) fun hne => ?_)
    exact hcurrent ▸ hactive.resolve_left hne

theorem write {w : Write} {transmitted : Bool} (ho : Owned c) (hn : Sent cfg c n i)
    (hw : c.worker = .send w) (h : c.workerWrite transmitted = some (c', es)) :
    Sent cfg c' (n + 1) w.id := by
  have hown : c.worker.owns := by rw [hw]; rfl
  have hnext := hn.next (by simp [hw, Worker.sends])
  obtain ⟨w', hw', -, rfl⟩ := workerWrite_cases h
  obtain rfl := Worker.send.inj (hw'.symm.trans hw)
  refine ⟨fun hunsent => ?_, fun _ hs => absurd hs.symm (Option.some_ne_none _),
    fun hs => absurd rfl hs, fun _ => ⟨rfl, Nat.succ_ne_zero n⟩, fun _ _ k hk => ?_⟩
  · rcases hunsent with hq | hpublish | hsubmit
    · exact absurd hq (ho.not_queued hown)
    · cases hpublish
    · have hidle := ho.not_caller hown
      rw [show c.caller = .publishSubmit from hsubmit] at hidle
      cases hidle
  · obtain rfl := Nat.succ.inj hk
    exact hnext

end Sent

/-! ## The writes of a token -/

/-- The message of the token is handed to the helper. -/
def Event.isWrite (serial : ℕ) : Event → Bool
  | .written w _ _ => w.serial = serial
  | _ => false

/-- How often it was. -/
def writes (serial : ℕ) (τ : List Event) : ℕ := τ.countP (Event.isWrite serial)

theorem writes_append (serial : ℕ) (τ τ' : List Event) :
    writes serial (τ ++ τ') = writes serial τ + writes serial τ' := List.countP_append

theorem writes_eq_zero {serial : ℕ} {τ : List Event} :
    writes serial τ = 0 ↔ ∀ w m t, .written w m t ∈ τ → w.serial ≠ serial := by
  rw [writes, List.countP_eq_zero]
  constructor
  · intro h w m t hm hs
    exact h _ hm (decide_eq_true hs)
  · intro h e he hwrite
    cases e with
    | written w m t => exact h w m t he (of_decide_eq_true hwrite)
    | _ => cases hwrite

/-- The writes so far of the message under way, and the older ones. -/
structure Repeated (cfg : ClientConfig) (c : Client) (τ : List Event) : Prop where
  sent : ∃ i, Sent cfg c (writes c.publishToken τ) i ∧
    ∀ w m t, .written w m t ∈ τ → w.serial = c.publishToken → w.id = i
  old : ∀ w m t, .written w m t ∈ τ → w.serial ≤ c.nextPublishToken

namespace Repeated

variable {τ : List Event}

/-- A step that writes nothing and keeps the token. -/
theorem sent_of_silent (hr : Repeated cfg c τ) (hsilent : ∀ w m t, .written w m t ∉ es)
    (htoken : c'.publishToken = c.publishToken) (hn : ∀ {n i}, Sent cfg c n i → Sent cfg c' n i) :
    ∃ i, Sent cfg c' (writes c'.publishToken (τ ++ es)) i ∧
      ∀ w m t, .written w m t ∈ τ ++ es → w.serial = c'.publishToken → w.id = i := by
  obtain ⟨i, hsent, hid⟩ := hr.sent
  have hnone : writes c.publishToken es = 0 :=
    writes_eq_zero.mpr fun w m t hm => absurd hm (hsilent w m t)
  refine ⟨i, ?_, fun w m t hm hs => ?_⟩
  · rw [htoken, writes_append, hnone, Nat.add_zero]
    exact hn hsent
  · rcases List.mem_append.mp hm with hm | hm
    · exact hid w m t hm (hs.trans htoken)
    · exact absurd hm (hsilent w m t)

/-- Nobody has written the message of a new token. -/
theorem sent_of_publishToken (ho : Owned c) (hr : Repeated cfg c τ)
    (hcaller : c.caller = .publishToken) (h : c.callerStep = some (c', es)) :
    ∃ i, Sent cfg c' (writes c'.publishToken (τ ++ es)) i ∧
      ∀ w m t, .written w m t ∈ τ ++ es → w.serial = c'.publishToken → w.id = i := by
  have hsent' : Sent cfg c' 0 0 := .publishToken ho hcaller h
  simp only [Client.callerStep, hcaller] at h
  obtain ⟨rfl, rfl⟩ := Prod.mk.inj (Option.some.inj h)
  have hunwritten : ∀ w m t, .written w m t ∈ τ → w.serial ≠ c.nextPublishToken + 1 :=
    fun w m t hm => by have := hr.old w m t hm; omega
  rw [List.append_nil]
  refine ⟨0, ?_, fun w m t hm hs => absurd hs (hunwritten w m t hm)⟩
  exact (writes_eq_zero.mpr hunwritten) ▸ hsent'

/-- The worker writes the message once more. -/
theorem sent_of_write {w : Write} {t : Bool} (ho : Owned c) (hu : UnderWay c)
    (hr : Repeated cfg c τ) (hw : c.worker = .send w)
    (h : c.workerWrite t = some (c', es)) :
    ∃ i, Sent cfg c' (writes c'.publishToken (τ ++ es)) i ∧
      ∀ w m t, .written w m t ∈ τ ++ es → w.serial = c'.publishToken → w.id = i := by
  obtain ⟨i, hsent, hid⟩ := hr.sent
  obtain ⟨hne, hserial, -⟩ := hu.write w (by rw [hw]; rfl)
  have hsent' := hsent.write ho hw h
  simp only [Client.workerWrite, hw] at h
  obtain ⟨rfl, rfl⟩ := Prod.mk.inj (Option.some.inj h)
  have hone : writes c.publishToken [.written w c.message t] = 1 := by
    simp [writes, Event.isWrite, hserial]
  refine ⟨w.id, ?_, fun w' m' t' hm hs => ?_⟩
  · rw [writes_append]
    exact hone ▸ hsent'
  · rcases List.mem_append.mp hm with hm | hm
    · -- it was written before, so this is a retransmission
      have hdup : w.duplicate := by
        by_contra hdup
        have hzero := hsent.first w (by rw [hw]; rfl) (by simpa using hdup)
        exact writes_eq_zero.mp hzero w' m' t' hm hs
      have hcurrent : c.current = w.id := by simp [Client.current, hw, Worker.current, hdup]
      rw [hid w' m' t' hm hs, ← (hsent.current (by rw [hcurrent]; exact hne)).1, hcurrent]
    · cases List.mem_singleton.mp hm
      rfl

theorem step {a : Action} (hT : cfg.pubackTimeoutSeconds ≤ cfg.pubackMaxDelaySeconds)
    (ho : Owned c) (hu : UnderWay c) (hr : Repeated cfg c τ) (h : c.step cfg a = some (c', es)) :
    Repeated cfg c' (τ ++ es) := by
  have hb := Backed.step ho hu h
  refine ⟨?_, fun w m t hm => ?_⟩
  · cases a with
    | caller =>
      have hsilent : ∀ w m t, .written w m t ∉ es := fun w m t hm => by
        cases ((Effect.step h).written w m t hm).1
      by_cases hcaller : c.caller = .publishToken
      · exact hr.sent_of_publishToken ho hcaller h
      · have hk := Keeps.callerStep hcaller h
        exact hr.sent_of_silent hsilent hk.token fun hn => hn.keep hk
    | worker =>
      have hsilent : ∀ w m t, .written w m t ∉ es := fun w m t hm => by
        cases ((Effect.step h).written w m t hm).1
      by_cases hw : ∃ w, c.worker = .timeoutGeneration w
      · obtain ⟨w, hw⟩ := hw
        exact hr.sent_of_silent hsilent ((Effect.step h).token (by simp)) fun hn => hn.retry hu hw h
      · have hk := Keeps.workerStep hu (not_exists.mp hw) h
        exact hr.sent_of_silent hsilent hk.token fun hn => hn.keep hk
    | workerMessageId id =>
      have hsilent : ∀ w m t, .written w m t ∉ es := fun w m t hm => by
        cases ((Effect.step h).written w m t hm).1
      exact hr.sent_of_silent hsilent ((Effect.step h).token (by simp)) fun hn => hn.messageId hT h
    | workerWrite t =>
      cases hw : c.worker with
      | send w => exact hr.sent_of_write ho hu hw h
      | _ => simp only [Client.step, Client.workerWrite, hw] at h; cases h
    | _ =>
      have hsilent : ∀ w m t, .written w m t ∉ es := fun w m t hm => by
        cases ((Effect.step h).written w m t hm).1
      have hk := Keeps.step (by simp) (by simp) (by simp) (by simp) h
      exact hr.sent_of_silent hsilent hk.token fun hn => hn.keep hk
  · rcases List.mem_append.mp hm with hm | hm
    · exact le_trans (hr.old w m t hm) hb.grows
    · obtain ⟨-, hw, -⟩ := (Effect.step h).written w m t hm
      rw [(hu.write w (by rw [hw]; rfl)).2.1, hu.counted]
      exact hb.grows

theorem of_run {c : Client} (hT : cfg.pubackTimeoutSeconds ≤ cfg.pubackMaxDelaySeconds)
    (hr : (mqttClient cfg).Run anyStep c τ) : Repeated cfg c τ := by
  refine hr.invariant_with (J := fun c _ => Owned c ∧ UnderWay c)
    (fun hr => ⟨Owned.of_run hr, UnderWay.of_run hr⟩) ⟨⟨0, ?_, by simp⟩, by simp⟩
    fun _ _ _ _ _ ⟨ho, hu⟩ hrep _ hs => hrep.step hT ho hu hs
  constructor <;> simp [mqttClient, writes, Worker.sends, Client.current, Worker.current]

/-- Only the first write has DUP clear, and every write has the same id. -/
theorem write {w : Write} (hu : UnderWay c) (hr : Repeated cfg c τ) (hw : c.worker = .send w) :
    (w.duplicate = false ↔ writes w.serial τ = 0) ∧
    ∀ w' m' t', .written w' m' t' ∈ τ → w'.serial = w.serial → w'.id = w.id := by
  obtain ⟨i, hsent, hid⟩ := hr.sent
  obtain ⟨hne, hserial, -⟩ := hu.write w (by rw [hw]; rfl)
  have hcurrent : w.duplicate → c.current = w.id := fun hdup => by
    simp [Client.current, hw, Worker.current, hdup]
  have hagain : w.duplicate → w.id = i ∧ writes c.publishToken τ ≠ 0 := fun hdup =>
    hcurrent hdup ▸ hsent.current (by rw [hcurrent hdup]; exact hne)
  have hfirst : w.duplicate = false → writes c.publishToken τ = 0 :=
    hsent.first w (by rw [hw]; rfl)
  rw [hserial]
  refine ⟨⟨hfirst, fun hzero => ?_⟩, fun w' m' t' hm hs => ?_⟩
  · by_contra hdup
    exact (hagain (by simpa using hdup)).2 hzero
  · by_cases hdup : w.duplicate
    · rw [hid w' m' t' hm hs, (hagain hdup).1]
    · exact absurd hs (writes_eq_zero.mp (hfirst (by simpa using hdup)) w' m' t' hm)

/-- The wait after a write that has returned. -/
theorem sent_delay {w : Write} {err : ℤ} (hu : UnderWay c) (hr : Repeated cfg c τ)
    (hw : c.worker = .sent w err) :
    ∃ k, writes w.serial τ = k + 1 ∧ c.pubackDelaySeconds = retryDelay cfg k := by
  obtain ⟨i, hsent, -⟩ := hr.sent
  obtain ⟨hne, hserial, -⟩ := hu.write w (by rw [hw]; rfl)
  have hcurrent : c.current = w.id := by simp [Client.current, hw, Worker.current]
  have hunder : c.current ≠ 0 := by rw [hcurrent]; exact hne
  obtain ⟨k, hk⟩ := Nat.exists_eq_succ_of_ne_zero (hsent.current hunder).2
  rw [hserial]
  exact ⟨k, hk, hsent.delay hunder (by rw [hw]; rfl) k hk⟩

end Repeated

theorem delay_le {c : Client} {τ : List Event}
    (hT : cfg.pubackTimeoutSeconds ≤ cfg.pubackMaxDelaySeconds)
    (hr : (mqttClient cfg).Run anyStep c τ) :
    c.pubackDelaySeconds ≤ cfg.pubackMaxDelaySeconds := by
  refine hr.invariant_state (I := fun c => c.pubackDelaySeconds ≤ cfg.pubackMaxDelaySeconds)
    (Nat.zero_le _) ?_
  exact fun _ _ _ _ _ hle _ hs => (Effect.step hs).delay hT hle

/-! ## The accepted message -/

/-- The generation the message under way was accepted in. -/
structure Dated (c : Client) : Prop where
  write : ∀ w, c.worker.write = some w → w.generation = c.publishGeneration
  active : c.activePublishId ≠ 0 → c.activePublishGeneration = c.publishGeneration
  reading : ∀ id, c.worker.reading = some id → id ≠ 0 →
    c.activePublishGeneration = c.publishGeneration
  token : ∀ id g, c.worker = .timeoutToken id g → id ≠ 0 → g = c.publishGeneration
  bounded : c.publishGeneration ≤ c.generation

namespace Dated

/-- A step of another thread can only clear the id and end the generation. -/
theorem of_frame (hd : Dated c) (h : OtherWorker c c' es)
    (hpublish : c'.publishGeneration = c.publishGeneration) : Dated c' := by
  refine ⟨?_, fun hne => ?_, ?_, ?_, hpublish ▸ hd.bounded.trans h.generation.le⟩
  · rw [h.worker, hpublish]
    exact hd.write
  · rw [h.activePublishGeneration, hpublish]
    refine hd.active fun hzero => hne ?_
    rcases h.activePublishId with hsame | hcleared
    · rw [hsame, hzero]
    · exact hcleared
  · rw [h.worker, h.activePublishGeneration, hpublish]
    exact hd.reading
  · rw [h.worker, hpublish]
    exact hd.token

/-- The worker moves on with no more in hand than it had. -/
theorem withWorker (hd : Dated c) (hwrite : ∀ w, c'.worker.write = some w → c.worker.write = some w)
    (hreading : c'.worker.reading = none)
    (hle : c.generation ≤ c'.generation := by exact le_refl _)
    (hactive : c'.activePublishId ≠ 0 → c.activePublishId ≠ 0 := by exact fun h => h)
    (hgeneration : c'.activePublishGeneration = c.activePublishGeneration := by rfl)
    (hpublish : c'.publishGeneration = c.publishGeneration := by rfl) : Dated c' where
  write w hw := hpublish ▸ hd.write w (hwrite w hw)
  active h := hgeneration.trans ((hd.active (hactive h)).trans hpublish.symm)
  reading id hid := absurd (hreading.symm.trans hid) (by simp)
  token id g hw := absurd hreading (by simp [hw, Worker.reading])
  bounded := hpublish ▸ hd.bounded.trans hle

/-- A new generation is read only while no message is under way. -/
theorem publishGeneration (ho : Owned c) (hcaller : c.caller = .publishGeneration) :
    Dated { c with caller := .publishToken, publishGeneration := c.generation } := by
  have hfree : ¬c.inUse := ho.not_inUse (by rw [hcaller]; rfl)
  have hworker := (ho.caller (by rw [hcaller]; rfl)).2
  have hactive : c.activePublishId = 0 := by
    by_contra hactive
    exact hfree (.inr (.inr (.inl hactive)))
  refine ⟨fun w hw => ?_, fun h => absurd hactive h, fun id hid => ?_, fun id g hw => ?_, le_rfl⟩
  · rw [Worker.write_eq_none hworker] at hw
    cases hw
  · rw [Worker.reading_eq_none hworker] at hid
    cases hid
  · obtain hw : c.worker = .timeoutToken id g := hw
    rw [hw] at hworker
    cases hworker

theorem callerStep (ho : Owned c) (hd : Dated c) (h : c.callerStep = some (c', es)) :
    Dated c' := by
  rcases (callerStep_writes h).2 with hcaller | hsame
  · simp only [Client.callerStep, hcaller] at h
    cases h
    exact publishGeneration ho hcaller
  · exact hd.of_frame (OtherWorker.callerStep h) hsame

theorem take (hd : Dated c) {job : Job} {rest : List Job} :
    Dated { c with worker := job.handler, queue := rest } := by
  cases job <;> exact hd.withWorker (by simp [Job.handler, Worker.write]) rfl

theorem publishSent (hd : Dated c) (w : Write) (err : ℤ) : Dated (c.publishSent w err).1 := by
  rw [Client.publishSent]
  split
  · exact hd.withWorker (by simp [cancelTimeout, Worker.write]) rfl le_rfl fun h => absurd rfl h
  split
  · exact hd.withWorker (by simp [Worker.write]) rfl
  · exact hd.withWorker (by simp [Worker.write]) rfl

theorem workerStep (hd : Dated c) (h : c.workerStep cfg = some (c', es)) : Dated c' := by
  cases hw : c.worker <;> simp only [Client.workerStep, hw] at h
  case idle =>
    split at h <;> cases h
    exact take hd
  case sent w err =>
    split at h
    · cases h
    · obtain rfl := congrArg Prod.fst (Option.some.inj h)
      exact hd.publishSent w err
  case timeoutId =>
    cases h
    exact { hd with
      write := by simp [Worker.write]
      reading := fun id hid hne => hd.active ((Option.some.inj hid).symm ▸ hne)
      token := by simp }
  case timeoutPublishGeneration id =>
    cases h
    have hread := hd.reading id (by rw [hw]; rfl)
    refine { hd with write := by simp [Worker.write], reading := ?_, token := ?_ }
    · rintro _ ⟨⟩
      exact hread
    · rintro _ _ ⟨⟩
      exact hread
  case timeoutToken id g =>
    split at h <;> rename_i hid <;> cases h
    · exact hd.withWorker (by simp [Worker.write]) rfl
    · refine { hd with write := ?_, reading := by simp [Worker.reading], token := by simp }
      rintro _ ⟨⟩
      exact hd.token id g hw hid
  case timeoutLte w | timeoutConnected w | timeoutGeneration w =>
    split at h <;> cases h
    · exact hd.withWorker (by simp [hw, Worker.write]) rfl
    · exact hd.withWorker (by simp [Worker.write]) rfl
  case onDisconnect x =>
    cases x <;> simp only at h
    case connected =>
      split at h <;> cases h
      exact hd.withWorker (by simp [closeConnected, Worker.write]) rfl
    case publish =>
      cases h
      exact hd.withWorker (by simp [closePublish, cancelTimeout, Worker.write]) rfl
        (Nat.le_succ _) fun h => absurd rfl h
    case pending | post =>
      cases h
      exact hd.withWorker (by simp [Worker.write]) rfl
  case publish =>
    split at h <;> try split at h
    all_goals cases h
    exact hd.withWorker (by simp [Worker.write]) rfl
  case connectHelper | send | sending => cases h
  case connectRelease | connectGeneration | connectSetGeneration | connectFailed | connectPostError
      | release | postFailed =>
    cases h
    exact hd.withWorker (by simp [Worker.write]) rfl
  all_goals
    split at h <;> cases h
    all_goals exact hd.withWorker (by simp [Worker.write]) rfl

theorem step {a : Action} (ho : Owned c) (hd : Dated c) (h : c.step cfg a = some (c', es)) :
    Dated c' := by
  cases hc : a.isCaller with
  | true =>
    by_cases ha : a = .caller
    · subst ha
      exact hd.callerStep ho h
    · exact hd.of_frame (OtherWorker.step (Action.isWorker_of_isCaller hc) h)
        (call_writes hc ha h).2.2
  | false =>
    cases hworker : a.isWorker with
    | false =>
      exact hd.of_frame (OtherWorker.step hworker h) (OtherCaller.step hc h).publishGeneration
    | true =>
      cases a with
      | worker => exact hd.workerStep h
      | workerConnect failed =>
        obtain ⟨g, hw, -, rfl | ⟨-, rfl⟩⟩ := workerConnect_cases h
        all_goals exact hd.withWorker (by simp [Worker.write]) rfl
      | workerMessageId id =>
        obtain ⟨-, -, -, rfl⟩ := workerMessageId_cases h
        refine { hd with write := ?_, active := fun _ => rfl, reading := ?_, token := by simp }
        · rintro _ ⟨⟩
          rfl
        · simp [Worker.reading]
      | workerWrite transmitted =>
        obtain ⟨w, hw, -, rfl⟩ := workerWrite_cases h
        exact hd.withWorker (by simp [hw, Worker.write]) rfl
      | workerSent err =>
        obtain ⟨w, hw, -, rfl⟩ := workerSent_cases h
        exact hd.withWorker (by simp [hw, Worker.write]) rfl
      | _ => cases hworker

theorem of_run {c : Client} {τ : List Event} (hr : (mqttClient cfg).Run anyStep c τ) :
    Dated c :=
  hr.invariant_with (J := fun c _ => Owned c) (I := fun c _ => Dated c) Owned.of_run
    (by constructor <;> simp [mqttClient, Worker.write, Worker.reading])
    fun _ _ _ _ _ ho hd _ hs => hd.step ho hs

end Dated

/-- `y` accepted the message under way, and nobody has touched it since. -/
structure AcceptedAt (c : Client) (y : Step Client Action Event) (ρ : Record) : Prop where
  accepted : .accepted c.publishToken c.message ∈ y.events
  message : ∀ x ∈ y :: ρ, x.after.message = c.message
  generation : y.before.publishGeneration = c.publishGeneration
  bounded : y.before.publishGeneration ≤ y.before.generation
  before : y.before.generation ≤ c.generation
  chosen : c.publishQueued ∨ y.before.generation = c.publishGeneration


/-- The message under way was accepted by a step of the run. -/
theorem acceptedAt_of_run {c : Client} {ρ : Record}
    (hr : (mqttClient cfg).record.Run anyStep c ρ) :
    c.inUse → ∃ ρ₁ y ρ₂, ρ = ρ₁ ++ y :: ρ₂ ∧ AcceptedAt c y ρ₂ := by
  refine hr.invariant_with
    (J := fun c _ => Owned c ∧ UnderWay c ∧ Dated c)
    (I := fun c ρ => c.inUse → ∃ ρ₁ y ρ₂, ρ = ρ₁ ++ y :: ρ₂ ∧ AcceptedAt c y ρ₂)
    (fun hr => ⟨Owned.of_run hr.unrecord, UnderWay.of_run hr.unrecord, Dated.of_run hr.unrecord⟩)
    (fun huse => ?_) ?_
  · simp [mqttClient, Library.System.record, inUse, Worker.write, Worker.reading] at huse
  · intro c ρ a c' xs hinv hold _ hs huse'
    obtain ⟨ho, hu, hd⟩ := hinv
    obtain ⟨es, hstep, rfl⟩ := Library.System.record_step hs
    have heffect := Effect.step hstep
    have hkept : c'.publishGeneration = c.publishGeneration :=
      heffect.publishGeneration.resolve_right fun hread =>
        ho.not_inUse (by rw [hread.1]; rfl) (hread.2 huse')
    have hle := heffect.generation
    rcases (Backed.step ho hu hstep).buffer huse' with ⟨huse, htoken, hmessage⟩ | rfl
    · obtain ⟨ρ₁, y, ρ₂, rfl, hy⟩ := hold huse
      refine ⟨ρ₁, y, ρ₂ ++ [⟨c, a, c', es⟩], by simp, ?_, fun x hx => ?_, ?_, hy.bounded,
        hy.before.trans hle, ?_⟩
      · rw [htoken, hmessage]
        exact hy.accepted
      · rw [hmessage]
        rcases List.mem_append.mp (List.cons_append ▸ hx) with hx | hx
        · exact hy.message x hx
        · rw [List.mem_singleton.mp hx]
          exact hmessage
      · rw [hkept]
        exact hy.generation
      · rcases hy.chosen with hqueued | hdone
        · have hidle : c.activePublishId = 0 := by
            by_contra hactive
            obtain ⟨-, hqueue, hworker⟩ := ho.active hactive
            exact hqueued.elim hqueue hworker
          refine (heffect.chosen hqueued hidle huse').imp_right fun hgen => ?_
          have := hy.generation
          have := hy.bounded
          have := hy.before
          omega
        · exact .inr (hkept ▸ hdone)
    · refine ⟨ρ, _, [], rfl, List.mem_cons_self, fun x hx => ?_, hkept.symm, hd.bounded, hle,
        .inl (heffect.accepted _ _ List.mem_cons_self)⟩
      rw [List.mem_singleton.mp hx]

/-- The generation ended after the worker had decided to write `w`. -/
def Raced (ρ : Record) (w : Write) : Prop :=
  ∃ ρ₁ x ρ₂, ρ = ρ₁ ++ x :: ρ₂ ∧ x.after.generation ≠ x.before.generation ∧
    ∀ z ∈ x :: ρ₂, z.before.worker = .send w

/-- The worker writes in its own generation, unless that has just ended. -/
theorem raced_of_run {c : Client} {ρ : Record} (hr : (mqttClient cfg).record.Run anyStep c ρ) :
    ∀ w, c.worker = .send w → c.generation = w.generation ∨ Raced ρ w := by
  refine hr.invariant
    (I := fun c ρ => ∀ w, c.worker = .send w → c.generation = w.generation ∨ Raced ρ w)
    (fun w hw => by cases hw) ?_
  intro c ρ a c' xs hold _ hs w hw
  obtain ⟨es, hstep, rfl⟩ := Library.System.record_step hs
  rcases (Effect.step hstep).send w hw with hsame | hdone
  · by_cases hgen : c'.generation = c.generation
    · rcases hold w hsame with heq | ⟨ρ₁, x, ρ₂, rfl, hx, hρ₂⟩
      · exact .inl (hgen.trans heq)
      · refine .inr ⟨ρ₁, x, ρ₂ ++ [⟨c, a, c', es⟩], by simp, hx, fun z hz => ?_⟩
        rcases List.mem_append.mp (List.cons_append ▸ hz) with hz | hz
        · exact hρ₂ z hz
        · rw [List.mem_singleton.mp hz]
          exact hsame
    · exact .inr ⟨ρ, _, [], rfl, hgen, fun z hz => by rw [List.mem_singleton.mp hz]; exact hsame⟩
  · exact .inl hdone

/-- `aitsm_mqtt_publish_payload` was called with `m` and accepted it as `serial`
in the generation `g`; since then the buffers hold it. -/
def Carries (ρ : Record) (serial : ℕ) (m : Message) (g : ℕ) : Prop :=
  ∃ ρ₁ x ρ₂ y ρ₃, ρ = ρ₁ ++ x :: (ρ₂ ++ y :: ρ₃) ∧ x.action = .callPublish m ∧
    (∀ z ∈ ρ₂, z.action.isPublish = false) ∧ .accepted serial m ∈ y.events ∧
    y.before.generation = g ∧ (∀ z ∈ y :: ρ₃, z.after.message = m) ∧
    ∀ m', .accepted serial m' ∈ reports ρ → m' = m

/-- What the worker writes was accepted, in the generation of the write. -/
theorem carries_of_write {c : Client} {ρ : Record} {w : Write}
    (hr : (mqttClient cfg).record.Run anyStep c ρ) (hw : c.worker.write = some w) :
    Carries ρ w.serial c.message w.generation := by
  have ho := Owned.of_run hr.unrecord
  obtain ⟨-, hserial, -⟩ := (UnderWay.of_run hr.unrecord).write w hw
  have huse : c.inUse := .inr (.inr (.inr (.inl (by rw [hw]; simp))))
  obtain ⟨ρ₁, y, ρ₃, rfl, hy⟩ := acceptedAt_of_run hr huse
  obtain ⟨hbefore, -, hstep, -⟩ := hr.split rfl
  obtain ⟨ρ₁, x, ρ₂, rfl, hx, hquiet⟩ :=
    Called.of_run hbefore c.message (carried_of_accepted hstep hy.accepted)
  have hdate := (Dated.of_run hr.unrecord).write w hw
  have hchosen : ¬c.publishQueued := by
    rintro (hqueue | hworker)
    · exact Bool.false_ne_true ((ho.queued hqueue).symm.trans (Worker.owns_of_write hw))
    · rw [hworker] at hw
      cases hw
  refine ⟨ρ₁, x, ρ₂, y, ρ₃, by simp, hx, hquiet, hserial ▸ hy.accepted, ?_, hy.message,
    fun m' hm' => ?_⟩
  · rw [hdate]
    exact hy.chosen.resolve_left hchosen
  · exact (Traced.of_run hr.unrecord).unique _ m' c.message (hserial ▸ hm')
      ((Traced.of_run hr.unrecord).accepted huse)

theorem accepted_of_written {c : Client} {ρ : Record} {w : Write} {m : Message} {t : Bool}
    (hr : (mqttClient cfg).record.Run anyStep c ρ) (hm : .written w m t ∈ reports ρ) :
    .accepted w.serial m ∈ reports ρ := by
  obtain ⟨z, hz, hmz⟩ := List.mem_flatMap.mp hm
  obtain ⟨ρ₁, ρ₂, rfl⟩ := List.append_of_mem hz
  obtain ⟨hbefore, -, hstep, -⟩ := hr.split rfl
  obtain ⟨-, hw, rfl⟩ := (Effect.step hstep).written w m t hmz
  obtain ⟨ρ₃, x, ρ₄, y, ρ₅, rfl, -, -, hy, -⟩ := carries_of_write hbefore (w := w) (by rw [hw]; rfl)
  exact List.mem_flatMap.mpr ⟨y, by simp, hy⟩

/-- **Retransmissions are faithful.** Every write of a publication repeats the id
and the message of the first, which are those that were accepted; only the first
has DUP clear, and the waits double up to the maximum. A write outside the
generation of its publication raced with the end of that generation. -/
theorem retransmissions_faithful {c : Client} {ρ : Record}
    (hT : cfg.pubackTimeoutSeconds ≤ cfg.pubackMaxDelaySeconds)
    (hM : cfg.pubackMaxDelaySeconds ≤ 3600) (hr : (mqttClient cfg).record.Run anyStep c ρ) :
    (∀ ρ₁ z ρ₂ w m t, ρ = ρ₁ ++ z :: ρ₂ → .written w m t ∈ z.events →
      Carries ρ₁ w.serial m w.generation ∧
      (∀ w' m' t', .written w' m' t' ∈ reports ρ₁ → w'.serial = w.serial →
        w'.id = w.id ∧ m' = m) ∧
      (w.duplicate = false ↔ writes w.serial (reports ρ₁) = 0) ∧
      (z.before.generation = w.generation ∨ Raced ρ₁ w)) ∧
    (∀ ρ₁ z ρ₂ w, ρ = ρ₁ ++ z :: ρ₂ → z.before.worker = .sending w →
      ∃ m, Carries (ρ₁ ++ [z]) w.serial m w.generation) ∧
    (∀ ρ₁ z ρ₂ seconds, ρ = ρ₁ ++ z :: ρ₂ → .armed seconds ∈ z.events →
      ∃ w k, z.before.worker = .sent w 0 ∧ writes w.serial (reports ρ₁) = k + 1 ∧
        seconds = min (cfg.pubackTimeoutSeconds * 2 ^ k) cfg.pubackMaxDelaySeconds) ∧
    c.pubackDelaySeconds * 2 < 2 ^ 32 := by
  refine ⟨fun ρ₁ z ρ₂ w m t hρ hm => ?_, fun ρ₁ z ρ₂ w hρ hw => ?_,
    fun ρ₁ z ρ₂ seconds hρ hm => ?_, ?_⟩
  · obtain ⟨hbefore, -, hstep, -⟩ := hr.split hρ
    obtain ⟨-, hw, rfl⟩ := (Effect.step hstep).written w m t hm
    have hcarries := carries_of_write hbefore (w := w) (by rw [hw]; rfl)
    obtain ⟨hduplicate, hid⟩ := (Repeated.of_run hT hbefore.unrecord).write
      (UnderWay.of_run hbefore.unrecord) hw
    refine ⟨hcarries, fun w' m' t' hm' hs => ⟨hid w' m' t' hm' hs, ?_⟩, hduplicate,
      raced_of_run hbefore w hw⟩
    obtain ⟨-, -, -, -, -, -, -, -, -, -, -, hunique⟩ := hcarries
    exact hunique m' (hs ▸ accepted_of_written hbefore hm')
  · obtain ⟨-, -, hstep, hafter⟩ := hr.split hρ
    exact ⟨_, carries_of_write hafter ((Effect.step hstep).sending w hw)⟩
  · obtain ⟨hbefore, -, hstep, -⟩ := hr.split hρ
    obtain ⟨rfl, w, hw⟩ := (Effect.step hstep).armed seconds hm
    obtain ⟨k, hk, hdelay⟩ := (Repeated.of_run hT hbefore.unrecord).sent_delay
      (UnderWay.of_run hbefore.unrecord) hw
    exact ⟨w, k, hw, hk, hdelay⟩
  · have := delay_le hT hr.unrecord
    omega

/-- A publication is written, and written again when no PUBACK arrives. -/
def sendTwice : List Action :=
  List.flatten [sendOnce, [.expire], List.replicate 8 .worker, [.workerWrite true, .workerSent 0,
    .worker, .worker]]

theorem sendTwice_replays :
    ((mqttClient defaultClient).record.replay anyStep {} [] sendTwice).isSome := by
  decide +kernel

theorem retransmissions_faithful_sentTwice :
    ∃ c ρ, (mqttClient defaultClient).record.Run anyStep c ρ ∧ writes 1 (reports ρ) = 2 ∧
      .armed 60 ∈ reports ρ ∧ c.pubackDelaySeconds * 2 < 2 ^ 32 :=
  ⟨_, _, .of_isSome sendTwice_replays, by decide +kernel, by decide +kernel,
    (retransmissions_faithful (by decide) (by decide) (.of_isSome sendTwice_replays)).2.2.2⟩

end Aitsm.Original.Client
