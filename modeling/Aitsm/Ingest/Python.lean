import Aitsm.Library.Rounding
import Aitsm.Library.Wire

/-!
# The Python that `ingest.py` uses

* `PyError` — the exceptions that can be raised, by the classes that matter to
  `except (ValueError, TypeError)`.
* `Str` — a `str`: code points, lone surrogates included.
* `PyFloat` — a `float`: the sign and the pattern of a binary64 number.
* `fromtimestamp`, `astimezone`, `timestamp` — `datetime` in UTC, in
  microseconds since the epoch.
* `Value` — the objects that a JSON text or a Sparkplug payload turns into.
* `Runtime` — what the standard library makes of texts. Its functions may answer
  anything; their types say which exceptions they raise.

`fromtimestamp` follows CPython on a platform with a 64-bit `time_t` and the
range of glibc's `gmtime_r`.
-/

namespace Aitsm.Ingest

open Library Library.Wire

/-- The exceptions. Subclasses such as `UnicodeDecodeError` and
`JSONDecodeError` count as `ValueError`. -/
inductive PyError where
  | valueError
  | typeError
  | attributeError
  | structError
  | overflowError
  | osError
  | recursionError
  deriving DecidableEq

/-- What `except (ValueError, TypeError)` catches. -/
def PyError.caught : PyError → Bool
  | .valueError | .typeError => true
  | _ => false

/-! ## Strings -/

/-- A `str`. -/
abbrev Str : Type := List ℕ

/-- A string literal. -/
def str (s : String) : Str := s.toList.map Char.toNat

/-- `str.isspace`, of one code point. -/
def isSpace (c : ℕ) : Bool :=
  (9 ≤ c && c ≤ 13) || (28 ≤ c && c ≤ 32) || c == 0x85 || c == 0xA0 || c == 0x1680 ||
    (0x2000 ≤ c && c ≤ 0x200A) || c == 0x2028 || c == 0x2029 || c == 0x202F || c == 0x205F ||
    c == 0x3000

/-- `s.strip()`. -/
def strip (s : Str) : Str := (s.dropWhile isSpace).reverse.dropWhile isSpace |>.reverse

/-- `s.replace(c, new)`, for one code point. -/
def replace (s : Str) (c : ℕ) (new : Str) : Str :=
  s.flatMap fun x => if x = c then new else [x]

/-- `s.split(c)`, for one code point. -/
def split (s : Str) (c : ℕ) : List Str := s.splitOn c

/-- A byte that continues a sequence. -/
def utf8Tail (b : UInt8) : Bool := 0x80 ≤ b && b ≤ 0xBF

/-- The second byte of a sequence of three, by its first. -/
def utf8Second3 (b0 b1 : UInt8) : Bool :=
  if b0 = 0xE0 then 0xA0 ≤ b1 && b1 ≤ 0xBF
  else if b0 = 0xED then 0x80 ≤ b1 && b1 ≤ 0x9F
  else utf8Tail b1

/-- The second byte of a sequence of four, by its first. -/
def utf8Second4 (b0 b1 : UInt8) : Bool :=
  if b0 = 0xF0 then 0x90 ≤ b1 && b1 ≤ 0xBF
  else if b0 = 0xF4 then 0x80 ≤ b1 && b1 ≤ 0x8F
  else utf8Tail b1

/-- `data.decode("utf-8")`; `none` is a `UnicodeDecodeError`. -/
def decodeUtf8 : Bytes → Option Str
  | [] => some []
  | b0 :: rest =>
    if b0 < 0x80 then (decodeUtf8 rest).map (b0.toNat :: ·)
    else
      match rest with
      | [] => none
      | b1 :: rest =>
        if 0xC2 ≤ b0 ∧ b0 ≤ 0xDF then
          if utf8Tail b1 then
            (decodeUtf8 rest).map ((b0.toNat % 32 * 64 + b1.toNat % 64) :: ·)
          else none
        else
          match rest with
          | [] => none
          | b2 :: rest =>
            if 0xE0 ≤ b0 ∧ b0 ≤ 0xEF then
              if utf8Second3 b0 b1 ∧ utf8Tail b2 then
                (decodeUtf8 rest).map
                  ((b0.toNat % 16 * 4096 + b1.toNat % 64 * 64 + b2.toNat % 64) :: ·)
              else none
            else
              match rest with
              | [] => none
              | b3 :: rest =>
                if 0xF0 ≤ b0 ∧ b0 ≤ 0xF4 ∧ utf8Second4 b0 b1 ∧ utf8Tail b2 ∧ utf8Tail b3 then
                  (decodeUtf8 rest).map
                    ((b0.toNat % 8 * 262144 + b1.toNat % 64 * 4096 + b2.toNat % 64 * 64
                      + b3.toNat % 64) :: ·)
                else none

/-- `s.encode("utf-8")` raises no `UnicodeEncodeError`: a surrogate has no encoding. -/
def encodesUtf8 (s : Str) : Bool := s.all fun c => c < 0xD800 || 0xDFFF < c

/-- ASCII is itself. -/
theorem decodeUtf8_ascii {bs : Bytes} (h : ∀ b ∈ bs, b < 0x80) :
    decodeUtf8 bs = some (bs.map UInt8.toNat) := by
  induction bs with
  | nil => rfl
  | cons b bs ih =>
    unfold decodeUtf8
    rw [if_pos (h b List.mem_cons_self), ih fun b' hb' => h b' (List.mem_cons_of_mem _ hb')]
    rfl

/-! ## Numbers -/

/-- A `float`. Patterns above that of infinity are NaN. -/
structure PyFloat where
  negative : Bool
  magnitude : ℕ
  deriving DecidableEq

namespace PyFloat

/-- `math.isfinite`. -/
def isFinite (x : PyFloat) : Bool := x.magnitude < binary64.infinity

/-- `math.isnan`. -/
def isNan (x : PyFloat) : Bool := binary64.infinity < x.magnitude

/-- The magnitude of a finite number, as a fraction. -/
def fraction? (x : PyFloat) : Option (ℕ × ℕ) :=
  (binary64.finite? x.magnitude).map fun (m, e) => Format.fraction m e

/-- The nearest `float` to `n / d`. -/
def ofFraction (negative : Bool) (n d : ℕ) : PyFloat := ⟨negative, binary64.round n d⟩

/-- `x * n / d`, rounded once, for `n / d` that is a `float` or the inverse of one. -/
def scale (x : PyFloat) (n d : ℕ) : PyFloat :=
  match x.fraction? with
  | some (a, b) => ofFraction x.negative (a * n) (b * d)
  | none => x

/-- `x > n`, for `n` that is a `float`. -/
def gt (x : PyFloat) (n : ℕ) : Bool :=
  !x.negative && !x.isNan && binary64.round n 1 < x.magnitude

/-- `round(x, 2)`. -/
def round2 (x : PyFloat) : PyFloat :=
  match x.fraction? with
  | some (a, b) => ofFraction x.negative (roundHalfEven (a * 100) b) 100
  | none => x

/-- `int(x)`, for a finite number. -/
def toInt (x : PyFloat) : ℤ :=
  match x.fraction? with
  | some (a, b) => if x.negative then -(a / b : ℕ) else (a / b : ℕ)
  | none => 0

/-- `float(n)`. -/
def ofInt (n : ℤ) : Except PyError PyFloat :=
  let x := ofFraction (n < 0) n.natAbs 1
  if x.isFinite then .ok x else .error .overflowError

/-- A binary32 pattern as a `float`. -/
def ofBinary32 (w : UInt32) : PyFloat :=
  let negative := decide (2 ^ 31 ≤ w.toNat)
  let magnitude := w.toNat % 2 ^ 31
  match binary32.finite? magnitude with
  | some (m, e) => ofFraction negative (Format.fraction m e).1 (Format.fraction m e).2
  | none =>
    if magnitude = binary32.infinity then ⟨negative, binary64.infinity⟩
    else ⟨negative, binary64.infinity + 1⟩

/-- A binary64 pattern as a `float`. -/
def ofBinary64 (n : ℕ) : PyFloat := ⟨decide (2 ^ 63 ≤ n), n % 2 ^ 63⟩

end PyFloat

/-- The number a byte string stands for, least significant byte first. -/
def littleEndian (bs : Bytes) : ℕ := bs.foldr (fun b n => b.toNat + 256 * n) 0

/-! ## Points in time -/

/-- `seconds`, rounded to microseconds: the integral part exactly, the fractional
part through a multiplication. -/
def microseconds (x : PyFloat) (a b : ℕ) : ℤ :=
  let part :=
    match (PyFloat.ofFraction false (a % b * 1000000) b).fraction? with
    | some (n, d) => roundHalfEven n d
    | none => 0
  let total : ℕ := a / b * 1000000 + part
  if x.negative then -total else total

/-- `datetime.fromtimestamp(seconds, timezone.utc)`. -/
def fromtimestamp (seconds : PyFloat) : Except PyError ℤ :=
  match seconds.fraction? with
  | none => .error (if seconds.isNan then .valueError else .overflowError)
  | some (a, b) =>
    let us := microseconds seconds a b
    let whole := us / 1000000
    -- `time_t`, then `gmtime_r`, then the years 1 to 9999
    if whole < -2 ^ 63 ∨ 2 ^ 63 ≤ whole then .error .overflowError
    else if whole < -67768040609740800 ∨ 67768036191676799 < whole then .error .osError
    else if whole < -62135596800 ∨ 253402300799 < whole then .error .valueError
    else .ok us

/-- What `datetime.fromisoformat` reads: a local time, in microseconds as if it
were UTC, and its offset from UTC. -/
structure IsoTime where
  localUs : ℤ
  offsetUs : Option ℤ

/-- `parsed.replace(tzinfo=parsed.tzinfo or timezone.utc).astimezone(timezone.utc)`. -/
def astimezone (t : IsoTime) : Except PyError ℤ :=
  let us := t.localUs - t.offsetUs.getD 0
  if us < -62135596800 * 1000000 ∨ 253402300800 * 1000000 ≤ us then .error .overflowError
  else .ok us

/-- `t.timestamp()`. -/
def timestamp (us : ℤ) : PyFloat := PyFloat.ofFraction (us < 0) us.natAbs 1000000

/-! ## Objects -/

/-- The objects that are passed around. -/
inductive Value where
  | none
  | bool (b : Bool)
  | int (n : ℤ)
  | float (x : PyFloat)
  | str (s : Str)
  | bytes (b : Bytes)
  | list (vs : List Value)
  | dict (entries : List (Str × Value))

/-- A `dict` with `str` keys, in insertion order. -/
abbrev Dict : Type := List (Str × Value)

/-- `d.get(key, default)`. -/
def Dict.getD (d : Dict) (key : Str) (default : Value) : Value := (d.lookup key).getD default

/-- `d.get(key)`. -/
def Dict.get (d : Dict) (key : Str) : Value := d.getD key .none

/-- `key in d`. -/
def Dict.has (d : Dict) (key : Str) : Bool := (d.lookup key).isSome

/-- `bool(value)`. -/
def Value.truthy : Value → Bool
  | .none => false
  | .bool b => b
  | .int n => n ≠ 0
  | .float x => x.magnitude ≠ 0
  | .str s => !s.isEmpty
  | .bytes b => !b.isEmpty
  | .list vs => !vs.isEmpty
  | .dict entries => !entries.isEmpty

/-- `a or b`. -/
def Value.or (a b : Value) : Value := if a.truthy then a else b

/-- What `json.loads` raises. -/
inductive JsonError where
  /-- `JSONDecodeError`, or the `ValueError` for too many digits -/
  | invalid
  /-- the text is nested too deeply for the interpreter -/
  | recursion

/-- What the standard library makes of texts. -/
structure Runtime where
  /-- `json.loads` -/
  loads : Str → Except JsonError Value
  /-- `float(text)`; `none` is a `ValueError` -/
  floatOfStr : Str → Option PyFloat
  /-- `float(data)`, for `bytes` -/
  floatOfBytes : Bytes → Option PyFloat
  /-- `datetime.fromisoformat`; `none` is a `ValueError` -/
  fromisoformat : Str → Option IsoTime
  /-- `repr` of a `float` -/
  reprFloat : PyFloat → Str

/-- `float(value)`. -/
def Runtime.float (rt : Runtime) : Value → Except PyError PyFloat
  | .bool b => .ok (PyFloat.ofFraction false b.toNat 1)
  | .int n => PyFloat.ofInt n
  | .float x => .ok x
  | .str s => (rt.floatOfStr s).elim (.error .valueError) .ok
  | .bytes b => (rt.floatOfBytes b).elim (.error .valueError) .ok
  | .none | .list _ | .dict _ => .error .typeError

end Aitsm.Ingest
