import Mathlib.Data.Rat.Floor
import Mathlib.Data.Rat.Defs

/-!
# JavaScript Values

The JSON part of the JavaScript value space, with the coercions, comparisons and property
reads that code performs on a value of unknown shape. `undefined` is not a JSON value: an
expression that may be undefined has type `Option Json`, with `none` for undefined.

Numbers are exact rationals, together with the two infinities (which `JSON.parse` yields
on overflow) and `NaN` (which arithmetic yields). Strings are Unicode strings, in which
2048 private characters stand for the lone halves of surrogate pairs. The fields
of an object stand in its own property order; `JSON.parse` never gives two fields of one
name.

The text of a number is the host's business: a `Numeral` prints and reads the numbers and
reads back what it prints.
-/

namespace Js

/-- A JavaScript number, without the rounding and the bounds of doubles. -/
inductive Number
  | nan
  | inf (neg : Bool)
  | fin (q : ℚ)
  deriving DecidableEq

/-- A value as `JSON.parse` yields it, an object as its fields in its own property order. -/
inductive Json
  | null
  | bool (b : Bool)
  | num (n : Number)
  | str (s : String)
  | arr (xs : List Json)
  | obj (fields : List (String × Json))

/-- The characters of a string. Those of an ASCII text are read straight off its bytes,
which makes concrete texts cheap to evaluate. -/
def chars (s : String) : List Char :=
  let bytes := s.toByteArray.data.toList
  if bytes.all (· < 128) then bytes.map fun b => Char.ofNat b.toNat else s.toList

/-- The characters a JSON number is made of. -/
def isNumeralChar (c : Char) : Bool :=
  c.isDigit || c == '-' || c == '+' || c == '.' || c == 'e' || c == 'E'

/-- How the host writes and reads finite numbers: what it prints it reads back, and the text has the
characters of a numeral only. -/
structure Numeral where
  print : ℚ → String
  read : String → Option Number
  read_print : ∀ q, read (print q) = some (.fin q)
  print_ne_nil : ∀ q, (print q).toList ≠ []
  print_chars : ∀ q, ∀ c ∈ (print q).toList, isNumeralChar c = true
  /-- `ToNumber` of a string: surrounding blanks, radix prefixes and the empty string are
  the host's business too. -/
  ofString : String → Number

/-- The TypeError of a primitive conversion that finds no primitive. -/
def cannotConvert : String := "Cannot convert object to primitive value"

/-- The TypeError of a property read on `null` or `undefined`. -/
def cannotRead (key : String) : String :=
  "Cannot read properties of null or undefined (reading '" ++ key ++ "')"

namespace Number

/-- `a + b`, which is `NaN` for opposite infinities. -/
def add : Number → Number → Number
  | fin p, fin q => fin (p + q)
  | inf s, fin _ => inf s
  | fin _, inf s => inf s
  | inf s, inf s' => if s = s' then inf s else nan
  | _, _ => nan

/-- `a * b`, which is `NaN` for zero times an infinity. -/
def mul : Number → Number → Number
  | fin p, fin q => fin (p * q)
  | inf s, fin q => if q = 0 then nan else inf (s != decide (q < 0))
  | fin q, inf s => if q = 0 then nan else inf (s != decide (q < 0))
  | inf s, inf s' => inf (s != s')
  | _, _ => nan

/-- `a / q` for a finite `q ≠ 0`, as the source only divides by 100. -/
def divBy (a : Number) (q : ℚ) : Number := a.mul (fin q⁻¹)

/-- `Math.round`: halves are rounded up, and the others to the nearest integer. -/
def round : Number → Number
  | fin q => fin ⌊q + 1 / 2⌋
  | n => n

/-- `String(n)`, by the host's numerals for finite numbers. -/
def toStr (N : Numeral) : Number → String
  | nan => "NaN"
  | inf neg => if neg then "-Infinity" else "Infinity"
  | fin q => N.print q

end Number

namespace Json

/-- `v.key`, or `v?.key`: the own property of an object, undefined everywhere else. -/
def get? : Json → String → Option Json
  | obj fields, key => fields.lookup key
  | _, _ => none

/-- `v === w` for two values that were parsed apart: objects and arrays are compared by
identity, so two of them are never equal, and `NaN` differs from itself. -/
def strictEq : Json → Json → Bool
  | null, null => true
  | bool b, bool c => b == c
  | num .nan, num .nan => false
  | num m, num n => m == n
  | str s, str t => s == t
  | _, _ => false

/-- `Boolean(v)`. -/
def truthy : Json → Bool
  | null => false
  | bool b => b
  | num .nan => false
  | num (.inf _) => true
  | num (.fin q) => q != 0
  | str s => s != ""
  | arr _ => true
  | obj _ => true

/-- `typeof v === 'object' && v !== null`, which arrays meet, too. -/
def isObject : Json → Bool
  | arr _ => true
  | obj _ => true
  | _ => false

/-- The string behind `v`, when `typeof v === 'string'`. -/
def asString : Json → Option String
  | str s => some s
  | _ => none

mutual

/-- `String(v)`, as a template literal computes it. The conversion of an object calls its
`toString`; an own property of that name hides the inherited method and cannot be called. -/
def toStr (N : Numeral) : Json → Except String String
  | null => .ok "null"
  | bool b => .ok (if b then "true" else "false")
  | num n => .ok (n.toStr N)
  | str s => .ok s
  | arr xs => (joinStr N xs).map (String.intercalate ",")
  | obj fields => if (fields.lookup "toString").isSome then .error cannotConvert
      else .ok "[object Object]"

/-- The parts that `Array.prototype.join` puts commas between. -/
def joinStr (N : Numeral) : List Json → Except String (List String)
  | [] => .ok []
  | x :: xs => do
      let s ← match x with
        | null => .ok ""
        | x => toStr N x
      let ss ← joinStr N xs
      pure (s :: ss)

end

/-- `Number(v)`. -/
def toNum (N : Numeral) : Json → Except String Number
  | null => .ok (.fin 0)
  | bool b => .ok (.fin (if b then 1 else 0))
  | num n => .ok n
  | str s => .ok (N.ofString s)
  | arr xs => (toStr N (.arr xs)).map N.ofString
  | obj fields => (toStr N (.obj fields)).map N.ofString

end Json

/-! ### Expressions that may be undefined -/

/-- `v.key`: a TypeError on `null` and `undefined`. -/
def prop (v : Option Json) (key : String) : Except String (Option Json) :=
  match v with
  | none => .error (cannotRead key)
  | some .null => .error (cannotRead key)
  | some v => .ok (v.get? key)

/-- `v?.key`, which is undefined for what has no such property. -/
def prop? (v : Option Json) (key : String) : Option Json := v.bind (·.get? key)

/-- `v === w`. -/
def strictEq : Option Json → Option Json → Bool
  | none, none => true
  | some v, some w => v.strictEq w
  | _, _ => false

/-- `Boolean(v)`. -/
def truthy (v : Option Json) : Bool := v.any Json.truthy

/-- A text that may be undefined, when it is truthy. -/
def truthyText (text : Option String) : Option String := text.filter (· ≠ "")

/-- White space and line terminators, which `trim` takes away. -/
def isSpace (c : Char) : Bool :=
  (9 ≤ c.toNat && c.toNat ≤ 13) || (0x2000 ≤ c.toNat && c.toNat ≤ 0x200A) ||
    [0x20, 0xA0, 0x1680, 0x2028, 0x2029, 0x202F, 0x205F, 0x3000, 0xFEFF].contains c.toNat

/-- `text.trim()`, at both ends. -/
def trim (text : String) : String :=
  .ofList (((text.toList.dropWhile isSpace).reverse.dropWhile isSpace).reverse)

/-- `String(v)`, of an expression that may be undefined. -/
def toStr (N : Numeral) : Option Json → Except String String
  | none => .ok "undefined"
  | some v => v.toStr N

/-- `Number(v)`. -/
def toNum (N : Numeral) : Option Json → Except String Number
  | none => .ok .nan
  | some v => v.toNum N

/-- `a + v` for a number `a`: a sum, or a concatenation when `v` is a string or becomes one. -/
def plus (N : Numeral) (a : Number) : Option Json → Except String Json
  | none => .ok (.num .nan)
  | some (.str s) => .ok (.str (a.toStr N ++ s))
  | some (.arr xs) => (Json.toStr N (.arr xs)).map fun s => .str (a.toStr N ++ s)
  | some (.obj fields) => (Json.toStr N (.obj fields)).map fun s => .str (a.toStr N ++ s)
  | some v => (v.toNum N).map fun n => .num (a.add n)

/-- The keys of a `Map` or a `Set` are compared as `===` does. That `NaN` is equal to itself
there makes no difference to values that were parsed. -/
instance : BEq Json := ⟨Json.strictEq⟩

/-- An object literal: `JSON.stringify` and every reader skip its undefined fields. -/
def object (fields : List (String × Option Json)) : Json :=
  .obj (fields.filterMap fun f => f.2.map (f.1, ·))

/-! ### Basic facts -/

/-- A text of bytes below 128 has these bytes for its characters. -/
theorem map_ofNat_of_ascii (l : List Char) (h : (l.flatMap String.utf8EncodeChar).all (· < 128)) :
    ((l.flatMap String.utf8EncodeChar).map fun b => Char.ofNat b.toNat) = l := by
  induction l with
  | nil => rfl
  | cons c l ih =>
      rw [List.flatMap_cons, List.all_append, Bool.and_eq_true] at h
      have hbyte : String.utf8EncodeChar c = [UInt8.ofNat c.val.toNat] ∧ c.val.toNat < 128 := by
        have hc := h.1
        unfold String.utf8EncodeChar at hc ⊢
        simp only at hc ⊢
        have hlt : (128 : UInt8).toNat = 128 := rfl
        split at hc
        next hle =>
          rw [if_pos hle]
          exact ⟨rfl, by omega⟩
        -- the first byte of a longer encoding is at least 192
        all_goals
          split at hc <;> try split at hc
          all_goals
            simp only [List.all_cons, Bool.and_eq_true, decide_eq_true_eq, UInt8.lt_iff_toNat_lt,
              UInt8.toNat_ofNat'] at hc
            omega
      rw [List.flatMap_cons, List.map_append, ih h.2, hbyte.1, List.map_singleton,
        UInt8.toNat_ofNat', Nat.mod_eq_of_lt (by omega)]
      change Char.ofNat c.toNat :: l = c :: l
      rw [Char.ofNat_toNat]

/-- `chars` are the characters. -/
@[simp] theorem chars_eq (s : String) : chars s = s.toList := by
  obtain ⟨l, rfl⟩ : ∃ l, s = String.ofList l := ⟨s.toList, by simp⟩
  have hbytes : (String.ofList l).toByteArray.data.toList = l.flatMap String.utf8EncodeChar := by
    simp [String.toByteArray_ofList, List.utf8Encode]
  rw [chars]
  split
  next h => rw [hbytes] at h ⊢; rw [map_ofNat_of_ascii l h, String.toList_ofList]
  next => rfl

/-- A sequence of two raising computations returns when both do. -/
theorem bind_eq_ok {ε α β : Type} {x : Except ε α} {f : α → Except ε β} {b : β} :
    x >>= f = .ok b ↔ ∃ a, x = .ok a ∧ f a = .ok b := by
  cases x with
  | error e => simp [bind, Except.bind]
  | ok a => simp [bind, Except.bind]

/-- What every round of a raising loop preserves holds at its end. -/
theorem foldlM_ok {ε α β : Type} {f : β → α → Except ε β} {p : β → Prop} {l : List α}
    (hstep : ∀ a ∈ l, ∀ b b', p b → f b a = .ok b' → p b') {b b' : β} (hb : p b)
    (h : l.foldlM f b = .ok b') : p b' := by
  induction l generalizing b with
  | nil => exact Except.ok.inj h ▸ hb
  | cons a l ih =>
      rw [List.foldlM_cons, bind_eq_ok] at h
      obtain ⟨c, hc, h⟩ := h
      exact ih (fun a ha => hstep a (List.mem_cons_of_mem _ ha))
        (hstep a List.mem_cons_self b c hb hc) h

/-- A text that is truthy is the one it was. -/
theorem eq_of_truthyText {s t : String} (h : truthyText (some s) = some t) : s = t :=
  Option.some.inj (Option.filter_eq_some_iff.mp h).1

/-- A text that is not empty is truthy. -/
theorem truthyText_of_ne {s : String} (h : s ≠ "") : truthyText (some s) = some s := by
  simp [truthyText, h]

/-- Reading a property of a value that is there. -/
theorem prop?_some (v : Json) (key : String) : prop? (some v) key = v.get? key := rfl

/-- What a property read returns is the property, where the read does not raise. -/
theorem prop_ok {v w : Option Json} {key : String} (h : prop v key = .ok w) :
    w = prop? v key := by
  match v, h with
  | some (.bool _), h => exact (Except.ok.inj h).symm
  | some (.num _), h => exact (Except.ok.inj h).symm
  | some (.str _), h => exact (Except.ok.inj h).symm
  | some (.arr _), h => exact (Except.ok.inj h).symm
  | some (.obj _), h => exact (Except.ok.inj h).symm

/-- A value strictly equal to a string is that string. -/
theorem strictEq_str {v : Option Json} {s : String} :
    strictEq v (some (.str s)) = true ↔ v = some (.str s) := by
  rcases v with - | v
  · simp [strictEq]
  · cases v <;> simp [strictEq, Json.strictEq]

/-- A value strictly equal to a finite number is that number. -/
theorem strictEq_fin {v : Option Json} {q : ℚ} :
    strictEq v (some (.num (.fin q))) = true ↔ v = some (.num (.fin q)) := by
  rcases v with - | v
  · simp [strictEq]
  · cases v with
    | num n => cases n <;> simp [strictEq, Json.strictEq]
    | _ => simp [strictEq, Json.strictEq]

/-- Strict equality is only ever between equal values. -/
theorem eq_of_strictEq {v w : Option Json} (h : strictEq v w = true) : v = w := by
  match v, w, h with
  | none, none, _ => rfl
  | some .null, some .null, _ => rfl
  | some (.bool b), some (.bool c), h => simpa [strictEq, Json.strictEq] using h
  | some (.num .nan), some (.num .nan), h => simp [strictEq, Json.strictEq] at h
  | some (.num .nan), some (.num (.inf _)), h => simp [strictEq, Json.strictEq] at h
  | some (.num .nan), some (.num (.fin _)), h => simp [strictEq, Json.strictEq] at h
  | some (.num (.inf _)), some (.num n), h => simpa [strictEq, Json.strictEq] using h
  | some (.num (.fin _)), some (.num n), h => simpa [strictEq, Json.strictEq] using h
  | some (.str s), some (.str t), h => simpa [strictEq, Json.strictEq] using h

/-- A value strictly equal to another is undefined or primitive. -/
theorem isObject_eq_false_of_strictEq {v : Json} {w : Option Json}
    (h : strictEq (some v) w = true) : v.isObject = false := by
  rcases w with - | w
  · simp [strictEq] at h
  · cases v <;> first | rfl | (cases w <;> simp [strictEq, Json.strictEq] at h)

/-- Strict equality is symmetric. -/
theorem strictEq_comm (v w : Option Json) : strictEq v w = strictEq w v := by
  rcases hvw : strictEq v w with - | -
  · rcases hwv : strictEq w v with - | -
    · rfl
    · have := eq_of_strictEq hwv
      subst this
      rw [hvw] at hwv
      cases hwv
  · have := eq_of_strictEq hvw
    subst this
    exact hvw.symm

/-- References are compared as equal only if they are. -/
theorem eq_of_beq_ref {a b : Option Json} (h : (a == b) = true) : a = b := by
  rcases a with - | a <;> rcases b with - | b
  · rfl
  · cases h
  · cases h
  · exact eq_of_strictEq h

/-- The equality of references is symmetric. -/
theorem beq_ref_comm (a b : Option Json) : (a == b) = (b == a) := by
  rcases a with - | a <;> rcases b with - | b
  · rfl
  · rfl
  · rfl
  · exact strictEq_comm (some a) (some b)

/-- A text equals itself as a reference, as `NaN` would not. -/
theorem beq_ref_str (text : String) : (some (Json.str text) == some (Json.str text)) = true :=
  decide_eq_true rfl

instance : PartialEquivBEq (Option Json) where
  symm h := by rwa [beq_ref_comm]
  trans h h' := by rwa [eq_of_beq_ref h]

end Js
