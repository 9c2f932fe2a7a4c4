import Mathlib.Data.List.Sort
import Mathlib.Tactic.Common
import NoGhost.Js.Value

/-!
# JSON Text

`JSON.stringify` and `JSON.parse` on lists of characters. `stringify` writes the compact
text: no blanks, the fields of an object in their own order, non-finite numbers as `null`.
`readValue` reads one value off the front of a text, with blanks and every escape of the
grammar; `parse` reads a whole text and builds its objects the way JavaScript does: a
repeated name keeps its first place and its last value, and the names that are array
indices come first, in numeric order.

Reading is fueled by the length of the text, which every recursive read shortens.

Two escapes that spell a surrogate pair are read as the one character of the pair, and the
escape of a half that stands alone is kept as that half, as `JSON.parse` keeps it; the writer
spells it out again. `halfChar` says which character stands for a half.

## Main results

* `readValue_stringify`: what `stringify` writes is read back, whatever follows it.
* `stringify_inj`: two values of one text are equal up to non-finite numbers.
-/

namespace Js

/-! ### Halves of surrogate pairs -/

/-- The first of the 2048 code points, the last ones of the private use area, that stand for
the lone halves of surrogate pairs. A text that uses these code points itself is outside the
model. -/
def firstHalf : ℕ := 1112064

/-- The first of these code points that stands for a low half. -/
def firstLow : ℕ := 1113088

/-- The character that stands for the lone half with code unit `n`. A JavaScript string may
hold half of a surrogate pair, where a string of Unicode characters may not. -/
def halfChar (n : ℕ) : Char := Char.ofNat (n - 55296 + firstHalf)

/-- The code unit of the half that a character stands for. -/
def halfUnit (c : Char) : ℕ := c.toNat - firstHalf + 55296

/-- A code unit that opens a surrogate pair. -/
def isHighUnit (n : ℕ) : Bool := 55296 ≤ n && n < 56320

/-- A code unit that closes a surrogate pair. -/
def isLowUnit (n : ℕ) : Bool := 56320 ≤ n && n < 57344

/-- The character stands for a lone high half. -/
def isHigh (c : Char) : Bool := firstHalf ≤ c.toNat && c.toNat < firstLow

/-- The character stands for a lone low half. -/
def isLow (c : Char) : Bool := firstLow ≤ c.toNat

/-! ### Writing -/

/-- A hexadecimal digit in lower case, as the escapes have it. -/
def hexDigit (n : ℕ) : Char :=
  if n < 10 then Char.ofNat ('0'.toNat + n) else Char.ofNat ('a'.toNat + (n - 10))

/-- The four hexadecimal digits of a code unit. -/
def hexDigits (n : ℕ) : List Char :=
  [hexDigit (n / 4096), hexDigit (n / 256 % 16), hexDigit (n / 16 % 16), hexDigit (n % 16)]

/-- One character of a JSON string: the control characters and the halves of surrogate pairs
are spelled out as code units. -/
def escapeChar (c : Char) : List Char :=
  if c = '"' then ['\\', '"']
  else if c = '\\' then ['\\', '\\']
  else if c = '\n' then ['\\', 'n']
  else if c = '\r' then ['\\', 'r']
  else if c = '\t' then ['\\', 't']
  else if c = '\x08' then ['\\', 'b']
  else if c = '\x0c' then ['\\', 'f']
  else if c.toNat < 32 then '\\' :: 'u' :: hexDigits c.toNat
  else if firstHalf ≤ c.toNat then '\\' :: 'u' :: hexDigits (halfUnit c)
  else [c]

/-- The characters of a JSON string. A high half in front of a low one is written as it is:
together they would be read as one character, and no JavaScript string holds the two apart. -/
def quoteBody : List Char → List Char
  | [] => []
  | c :: cs => (if isHigh c && cs.head?.any isLow then [c] else escapeChar c) ++ quoteBody cs

/-- A JSON string, quotes included, with its escapes. -/
def quote (s : String) : List Char := '"' :: (quoteBody (chars s) ++ ['"'])

mutual

/-- `JSON.stringify(v)`, without blanks; numbers that are not finite are null. -/
def stringify (N : Numeral) : Json → List Char
  | .null => ['n', 'u', 'l', 'l']
  | .bool true => ['t', 'r', 'u', 'e']
  | .bool false => ['f', 'a', 'l', 's', 'e']
  | .num (.fin q) => chars (N.print q)
  | .num _ => ['n', 'u', 'l', 'l']
  | .str s => quote s
  | .arr [] => ['[', ']']
  | .arr (x :: xs) => '[' :: (stringify N x ++ stringifyElems N xs)
  | .obj [] => ['{', '}']
  | .obj ((k, v) :: fs) => '{' :: (quote k ++ ':' :: (stringify N v ++ stringifyFields N fs))

/-- The elements after the first, up to the closing bracket. -/
def stringifyElems (N : Numeral) : List Json → List Char
  | [] => [']']
  | x :: xs => ',' :: (stringify N x ++ stringifyElems N xs)

/-- The fields after the first, up to the closing brace. -/
def stringifyFields (N : Numeral) : List (String × Json) → List Char
  | [] => ['}']
  | (k, v) :: fs => ',' :: (quote k ++ ':' :: (stringify N v ++ stringifyFields N fs))

end

/-! ### Reading -/

/-- The blanks of the JSON grammar, which are fewer than those of `trim`. -/
def isBlank (c : Char) : Bool := c == ' ' || c == '\n' || c == '\r' || c == '\t'

/-- The text after its leading blanks. -/
def skipBlanks (cs : List Char) : List Char := cs.dropWhile isBlank

/-- The value of a hexadecimal digit, in either case. -/
def hexVal (c : Char) : Option ℕ :=
  if '0' ≤ c ∧ c ≤ '9' then some (c.toNat - '0'.toNat)
  else if 'a' ≤ c ∧ c ≤ 'f' then some (c.toNat - 'a'.toNat + 10)
  else if 'A' ≤ c ∧ c ≤ 'F' then some (c.toNat - 'A'.toNat + 10)
  else none

/-- The code unit of a four-digit escape, if the four are digits. -/
def hexUnit (a b c d : Char) : Option ℕ := do
  let a ← hexVal a
  let b ← hexVal b
  let c ← hexVal c
  let d ← hexVal d
  pure (4096 * a + 256 * b + 16 * c + d)

/-- The character of an escaped code unit that is read by itself. -/
def unitChar (n : ℕ) : Char :=
  if 55296 ≤ n ∧ n < 57344 then halfChar n else Char.ofNat n

/-- The character of a surrogate pair, from its two code units. -/
def pairChar (hi lo : ℕ) : Char := Char.ofNat (65536 + 1024 * (hi - 55296) + (lo - 56320))

/-- The character of a one-letter escape, of which the grammar has eight. -/
def escapeLetter (c : Char) : Option Char :=
  if c = '"' ∨ c = '\\' ∨ c = '/' then some c
  else if c = 'n' then some '\n'
  else if c = 'r' then some '\r'
  else if c = 't' then some '\t'
  else if c = 'b' then some '\x08'
  else if c = 'f' then some '\x0c'
  else none

/-- The low half that an escape at the front of a text spells. -/
def lowEscape : List Char → Option ℕ
  | '\\' :: 'u' :: a :: b :: c :: d :: _ => (hexUnit a b c d).filter isLowUnit
  | _ => none

/-- An escaped code unit in front of the characters `cs` that were read behind it, the first
of which is the low half `lo`, if one was spelled there: a high half takes it along. -/
def joinUnit (n : ℕ) (lo : Option ℕ) (cs : List Char) : List Char :=
  match lo with
  | some lo => if isHighUnit n then pairChar n lo :: cs.tail else unitChar n :: cs
  | none => unitChar n :: cs

/-- The rest of a string, after its opening quote: its characters, and what follows it. -/
def readString : List Char → Option (List Char × List Char)
  | '"' :: r => some ([], r)
  | '\\' :: 'u' :: a :: b :: c :: d :: r => do
      let n ← hexUnit a b c d
      let (cs, r') ← readString r
      pure (joinUnit n (lowEscape r) cs, r')
  | '\\' :: c :: r => do
      let ch ← escapeLetter c
      let (cs, r) ← readString r
      pure (ch :: cs, r)
  | c :: r =>
      if c.toNat < 32 then none
      else do
        let (cs, r) ← readString r
        pure (c :: cs, r)
  | [] => none

mutual

/-- One value at the front of a text, and what follows it. -/
def readValue (N : Numeral) : ℕ → List Char → Option (Json × List Char)
  | 0, _ => none
  | n + 1, cs =>
    match skipBlanks cs with
    | 'n' :: 'u' :: 'l' :: 'l' :: r => some (.null, r)
    | 't' :: 'r' :: 'u' :: 'e' :: r => some (.bool true, r)
    | 'f' :: 'a' :: 'l' :: 's' :: 'e' :: r => some (.bool false, r)
    | '"' :: r => do
        let (s, r) ← readString r
        pure (.str (String.ofList s), r)
    | '[' :: r =>
      match skipBlanks r with
      | ']' :: r => some (.arr [], r)
      | r => do
          let (xs, r) ← readElems N n r
          pure (.arr xs, r)
    | '{' :: r =>
      match skipBlanks r with
      | '}' :: r => some (.obj [], r)
      | r => do
          let (fs, r) ← readFields N n r
          pure (.obj fs, r)
    | cs => do
        let q ← N.read (String.ofList (cs.takeWhile isNumeralChar))
        pure (.num q, cs.dropWhile isNumeralChar)

/-- The elements of an array up to its closing bracket. -/
def readElems (N : Numeral) : ℕ → List Char → Option (List Json × List Char)
  | 0, _ => none
  | n + 1, cs => do
    let (x, r) ← readValue N n cs
    match skipBlanks r with
    | ']' :: r => pure ([x], r)
    | ',' :: r => do
        let (xs, r) ← readElems N n r
        pure (x :: xs, r)
    | _ => none

/-- The fields of an object up to its closing brace. -/
def readFields (N : Numeral) : ℕ → List Char → Option (List (String × Json) × List Char)
  | 0, _ => none
  | n + 1, cs =>
    match skipBlanks cs with
    | '"' :: r => do
        let (k, r) ← readString r
        match skipBlanks r with
        | ':' :: r => do
            let (v, r) ← readValue N n r
            match skipBlanks r with
            | '}' :: r => pure ([(String.ofList k, v)], r)
            | ',' :: r => do
                let (fs, r) ← readFields N n r
                pure ((String.ofList k, v) :: fs, r)
            | _ => none
        | _ => none
    | _ => none

end

/-! ### Property order -/

/-- The array index a property name spells, if it spells one. -/
def arrayIndex (k : String) : Option ℕ :=
  let n := Nat.ofDigitChars 10 (chars k) 0
  if (chars k).all Char.isDigit && (n < 4294967295 && toString n == k) then some n else none

/-- The own property order: array indices first, in numeric order, then the other names in
the order of their creation. -/
def ownOrder (fields : List (String × Json)) : List (String × Json) :=
  (fields.filter fun f => (arrayIndex f.1).isSome).insertionSort
      (fun f g => (arrayIndex f.1).getD 0 ≤ (arrayIndex g.1).getD 0) ++
    fields.filter fun f => (arrayIndex f.1).isNone

/-- Define the property `k`: a second definition changes the value, not the place. -/
def define (fields : List (String × Json)) (k : String) (v : Json) : List (String × Json) :=
  if fields.any (·.1 == k) then fields.map fun f => if f.1 == k then (k, v) else f
  else fields ++ [(k, v)]

mutual

/-- The value JavaScript builds from a value as it is written. -/
def build : Json → Json
  | .arr xs => .arr (buildElems xs)
  | .obj fs => .obj (ownOrder ((buildFields fs).foldl (fun acc f => define acc f.1 f.2) []))
  | v => v

/-- `build` on every element of an array. -/
def buildElems : List Json → List Json
  | [] => []
  | x :: xs => build x :: buildElems xs

/-- `build` on every field of an object literal. -/
def buildFields : List (String × Json) → List (String × Json)
  | [] => []
  | (k, v) :: fs => (k, build v) :: buildFields fs

end

/-- `JSON.parse`: `none` is its SyntaxError. -/
def parse (N : Numeral) (text : List Char) : Option Json :=
  match readValue N (text.length + 1) text with
  | some (v, r) => if skipBlanks r = [] then some (build v) else none
  | none => none

/-! ### What the text keeps of a value -/

mutual

/-- A value after a journey as JSON text: its non-finite numbers are gone. -/
def wire : Json → Json
  | .num (.fin q) => .num (.fin q)
  | .num _ => .null
  | .arr xs => .arr (wireElems xs)
  | .obj fs => .obj (wireFields fs)
  | v => v

/-- `wire` on every element of an array. -/
def wireElems : List Json → List Json
  | [] => []
  | x :: xs => wire x :: wireElems xs

/-- `wire` on every field of an object. -/
def wireFields : List (String × Json) → List (String × Json)
  | [] => []
  | (k, v) :: fs => (k, wire v) :: wireFields fs

end

mutual

/-- The number of reads a value takes: the fuel of `readValue`. -/
def readSize : Json → ℕ
  | .arr xs => 1 + readSizeElems xs
  | .obj fs => 1 + readSizeFields fs
  | _ => 1

/-- `readSize` of a list of elements. -/
def readSizeElems : List Json → ℕ
  | [] => 0
  | x :: xs => 1 + readSize x + readSizeElems xs

/-- `readSize` of a list of fields. -/
def readSizeFields : List (String × Json) → ℕ
  | [] => 0
  | (_, v) :: fs => 1 + readSize v + readSizeFields fs

end

/-! ### Reading back a string -/

/-- A digit is read back from its text. -/
theorem hexVal_hexDigit : ∀ n < 16, hexVal (hexDigit n) = some n := by decide

/-- The digits of a code unit are read back. -/
theorem hexUnit_hexDigits {n : ℕ} (hn : n < 65536) :
    hexUnit (hexDigit (n / 4096)) (hexDigit (n / 256 % 16)) (hexDigit (n / 16 % 16))
      (hexDigit (n % 16)) = some n := by
  simp only [hexUnit, hexVal_hexDigit _ (show n / 4096 < 16 by omega),
    hexVal_hexDigit _ (Nat.mod_lt (n / 256) (by decide : 0 < 16)),
    hexVal_hexDigit _ (Nat.mod_lt (n / 16) (by decide : 0 < 16)),
    hexVal_hexDigit _ (Nat.mod_lt n (by decide : 0 < 16)),
    Option.bind_eq_bind, Option.bind_some, Option.pure_def, Option.some.injEq]
  omega

/-- The reader takes a spelled code unit off the front of a text. -/
theorem readString_hexDigits {n : ℕ} (hn : n < 65536) (r : List Char) :
    readString ('\\' :: 'u' :: (hexDigits n ++ r)) =
      (readString r).map fun p => (joinUnit n (lowEscape r) p.1, p.2) := by
  simp only [hexDigits, List.cons_append, List.nil_append, readString, hexUnit_hexDigits hn,
    Option.bind_eq_bind, Option.bind_some]
  cases readString r <;> rfl

/-- An escape of four digits is the low half of a pair where its unit is one. -/
theorem lowEscape_hexDigits {n : ℕ} (hn : n < 65536) (r : List Char) :
    lowEscape ('\\' :: 'u' :: (hexDigits n ++ r)) = (some n).filter isLowUnit := by
  simp only [hexDigits, List.cons_append, List.nil_append, lowEscape, hexUnit_hexDigits hn]

/-- A character that is neither a quote nor an escape is read as it is. -/
theorem readString_raw {c : Char} (h1 : c ≠ '"') (h2 : c ≠ '\\') (h3 : ¬ c.toNat < 32)
    (r : List Char) : readString (c :: r) = (readString r).map fun p => (c :: p.1, p.2) := by
  rw [readString.eq_def]
  split
  · rename_i heq
    cases heq
    exact absurd rfl h1
  · rename_i heq
    cases heq
    exact absurd rfl h2
  · rename_i heq
    cases heq
    exact absurd rfl h2
  · rename_i heq
    cases heq
    rw [if_neg h3]
    cases h : readString r <;> simp
  · rename_i heq
    cases heq

theorem toNat_lt (c : Char) : c.toNat < 1114112 := by
  have hc := c.valid
  have hcn : c.toNat = c.val.toNat := rfl
  simp only [UInt32.isValidChar, Nat.isValidChar] at hc
  omega

/-- The unit of a half that stands alone is read as that half. -/
theorem unitChar_halfUnit {c : Char} (h : firstHalf ≤ c.toNat) : unitChar (halfUnit c) = c := by
  have hlt := toNat_lt c
  simp only [firstHalf] at h
  rw [unitChar, if_pos (by simp only [halfUnit, firstHalf]; omega), halfChar]
  have hn : halfUnit c - 55296 + firstHalf = c.toNat := by
    simp only [halfUnit, firstHalf]
    omega
  rw [hn, Char.ofNat_toNat]

/-- A half is high exactly when its unit opens a pair. -/
theorem isHigh_eq_isHighUnit {c : Char} (h : firstHalf ≤ c.toNat) :
    isHigh c = isHighUnit (halfUnit c) := by
  rw [Bool.eq_iff_iff]
  simp only [isHigh, isHighUnit, Bool.and_eq_true, decide_eq_true_eq]
  simp only [halfUnit, firstHalf, firstLow] at h ⊢
  omega

/-- A half is low exactly when its unit closes a pair. -/
theorem isLow_eq_isLowUnit {c : Char} (h : firstHalf ≤ c.toNat) :
    isLow c = isLowUnit (halfUnit c) := by
  have hlt := toNat_lt c
  rw [Bool.eq_iff_iff]
  simp only [isLow, isLowUnit, Bool.and_eq_true, decide_eq_true_eq]
  simp only [halfUnit, firstHalf, firstLow] at h ⊢
  omega

/-- A high half is one of the characters that stand for halves. -/
theorem firstHalf_le_of_isHigh {c : Char} (h : isHigh c = true) : firstHalf ≤ c.toNat := by
  simp only [isHigh, Bool.and_eq_true, decide_eq_true_eq] at h
  exact h.1

/-- A half is written as its spelled unit, as a well-formed `JSON.stringify` does. -/
theorem escapeChar_half {c : Char} (h : firstHalf ≤ c.toNat) :
    escapeChar c = '\\' :: 'u' :: hexDigits (halfUnit c) := by
  have hne : ∀ d : Char, d.toNat < 128 → c ≠ d := by
    rintro d hd rfl
    simp only [firstHalf] at h
    omega
  have h32 : ¬ c.toNat < 32 := by
    simp only [firstHalf] at h
    omega
  rw [escapeChar, if_neg (hne _ (by decide)), if_neg (hne _ (by decide)),
    if_neg (hne _ (by decide)), if_neg (hne _ (by decide)), if_neg (hne _ (by decide)),
    if_neg (hne _ (by decide)), if_neg (hne _ (by decide)), if_neg h32, if_pos h]

/-- One escaped character is read back, and the reader goes on behind it, unless it is a high
half that would take the low half behind it along. -/
theorem readString_escapeChar {c : Char} {r : List Char}
    (hjoin : isHigh c = true → lowEscape r = none) :
    readString (escapeChar c ++ r) = (readString r).map fun p => (c :: p.1, p.2) := by
  unfold escapeChar
  by_cases h1 : c = '"'
  · subst h1
    cases h : readString r <;> simp [readString, escapeLetter, h]
  by_cases h2 : c = '\\'
  · subst h2
    cases h : readString r <;> simp [readString, escapeLetter, h]
  by_cases h3 : c = '\n'
  · subst h3
    cases h : readString r <;> simp [readString, escapeLetter, h]
  by_cases h4 : c = '\r'
  · subst h4
    cases h : readString r <;> simp [readString, escapeLetter, h]
  by_cases h5 : c = '\t'
  · subst h5
    cases h : readString r <;> simp [readString, escapeLetter, h]
  by_cases h6 : c = '\x08'
  · subst h6
    cases h : readString r <;> simp [readString, escapeLetter, h]
  by_cases h7 : c = '\x0c'
  · subst h7
    cases h : readString r <;> simp [readString, escapeLetter, h]
  rw [if_neg h1, if_neg h2, if_neg h3, if_neg h4, if_neg h5, if_neg h6, if_neg h7]
  by_cases h8 : c.toNat < 32
  · rw [if_pos h8, List.cons_append, List.cons_append, readString_hexDigits (by omega)]
    have hlow : ¬ isHighUnit c.toNat = true := by
      simp only [isHighUnit, Bool.and_eq_true, decide_eq_true_eq]
      omega
    have hunit : unitChar c.toNat = c := by
      rw [unitChar, if_neg (by omega), Char.ofNat_toNat]
    congr 1
    funext p
    cases lowEscape r <;> simp [joinUnit, hlow, hunit]
  rw [if_neg h8]
  by_cases h9 : firstHalf ≤ c.toNat
  · have hlt := toNat_lt c
    have hn : halfUnit c < 57344 := by
      simp only [halfUnit, firstHalf] at h9 ⊢
      omega
    rw [if_pos h9, List.cons_append, List.cons_append, readString_hexDigits (by omega)]
    congr 1
    funext p
    by_cases hhigh : isHigh c = true
    · simp [joinUnit, hjoin hhigh, unitChar_halfUnit h9]
    · have hunit : ¬ isHighUnit (halfUnit c) = true := by
        rwa [← isHigh_eq_isHighUnit h9]
      cases lowEscape r <;> simp [joinUnit, hunit, unitChar_halfUnit h9]
  · rw [if_neg h9]
    exact readString_raw h1 h2 h8 r

/-- A high half is neither a quote nor an escape nor a control character. -/
theorem plain_of_isHigh {c : Char} (h : isHigh c = true) :
    c ≠ '"' ∧ c ≠ '\\' ∧ ¬ c.toNat < 32 := by
  have hle := firstHalf_le_of_isHigh h
  simp only [firstHalf] at hle
  refine ⟨?_, ?_, by omega⟩ <;> rintro rfl <;> exact absurd hle (by decide)

/-- What does not begin with a backslash is no escape. -/
theorem lowEscape_raw {c : Char} (h : c ≠ '\\') (r : List Char) : lowEscape (c :: r) = none := by
  rw [lowEscape.eq_def]
  split
  next heq =>
    cases heq
    exact absurd rfl h
  next => rfl

/-- A written character that stands for no low half does not start like one. -/
theorem lowEscape_escapeChar {c : Char} (h : isLow c = false) (r : List Char) :
    lowEscape (escapeChar c ++ r) = none := by
  by_cases hhalf : firstHalf ≤ c.toNat
  · have hn : halfUnit c < 65536 := by
      have hlt := toNat_lt c
      simp only [halfUnit, firstHalf] at hhalf ⊢
      omega
    rw [escapeChar_half hhalf, List.cons_append, List.cons_append, lowEscape_hexDigits hn]
    simp [← isLow_eq_isLowUnit hhalf, h]
  · unfold escapeChar
    split_ifs with h1 h2 h3 h4 h5 h6 h7 h8 <;> try rfl
    · have hunit : isLowUnit c.toNat = false := by
        simp only [isLowUnit, Bool.and_eq_false_imp, decide_eq_true_eq]
        omega
      rw [List.cons_append, List.cons_append, lowEscape_hexDigits (by omega)]
      simp [hunit]
    · exact lowEscape_raw h2 r

/-- Behind a character that is no low half, no low half is spelled. -/
theorem lowEscape_quoteBody {cs : List Char} (h : cs.head?.any isLow = false) (r : List Char) :
    lowEscape (quoteBody cs ++ '"' :: r) = none := by
  cases cs with
  | nil => rfl
  | cons c cs =>
      rw [quoteBody, List.append_assoc]
      split
      next hpair =>
        obtain ⟨-, hne, -⟩ := plain_of_isHigh (Bool.and_eq_true_iff.mp hpair).1
        exact lowEscape_raw hne _
      next => exact lowEscape_escapeChar h _

/-- The body of a written string is read back up to its closing quote. -/
theorem readString_body (s r : List Char) :
    readString (quoteBody s ++ '"' :: r) = some (s, r) := by
  induction s with
  | nil => simp [quoteBody, readString]
  | cons c s ih =>
      rw [quoteBody, List.append_assoc]
      split
      next hpair =>
        obtain ⟨h1, h2, h3⟩ := plain_of_isHigh (Bool.and_eq_true_iff.mp hpair).1
        rw [List.singleton_append, readString_raw h1 h2 h3, ih, Option.map_some]
      next hpair =>
        rw [readString_escapeChar, ih, Option.map_some]
        intro hhigh
        refine lowEscape_quoteBody ?_ r
        simpa [hhigh] using hpair

/-! ### Reading back a value -/

/-- The text `r` does not go on with a numeral. -/
def NumeralEnd (r : List Char) : Prop := ∀ c ∈ r.head?, isNumeralChar c = false

/-- A numeral ends at the end of the text. -/
theorem numeralEnd_nil : NumeralEnd [] := by simp [NumeralEnd]

/-- A numeral ends before a character that is none of its own. -/
theorem numeralEnd_cons {c : Char} {r : List Char} (h : isNumeralChar c = false) :
    NumeralEnd (c :: r) := by
  simpa [NumeralEnd] using h

/-- A numeral ends where the elements of an array go on. -/
theorem numeralEnd_elems (N : Numeral) (xs : List Json) (r : List Char) :
    NumeralEnd (stringifyElems N xs ++ r) := by
  cases xs <;> exact numeralEnd_cons (by decide)

/-- A numeral ends where the fields of an object go on. -/
theorem numeralEnd_fields (N : Numeral) (fs : List (String × Json)) (r : List Char) :
    NumeralEnd (stringifyFields N fs ++ r) := by
  cases fs <;> exact numeralEnd_cons (by decide)

/-- The first character of a numeral is none of the others a value may start with. -/
theorem ne_of_isNumeralChar {c : Char} (h : isNumeralChar c = true) :
    isBlank c = false ∧ c ≠ 'n' ∧ c ≠ 't' ∧ c ≠ 'f' ∧ c ≠ '"' ∧ c ≠ '[' ∧ c ≠ ']' ∧
      c ≠ '{' := by
  refine ⟨?_, ?_⟩
  · rcases hb : isBlank c with - | -
    · rfl
    · simp only [isBlank, Bool.or_eq_true, beq_iff_eq] at hb
      rcases hb with ((rfl | rfl) | rfl) | rfl <;> exact absurd h (by decide)
  · refine ⟨?_, ?_, ?_, ?_, ?_, ?_, ?_⟩ <;> rintro rfl <;> exact absurd h (by decide)

/-- There is nothing to skip before a character that is no blank. -/
theorem skipBlanks_cons {c : Char} {r : List Char} (h : isBlank c = false) :
    skipBlanks (c :: r) = c :: r := by
  simp [skipBlanks, h]

/-- A value's text starts with a character that is neither blank nor a closing bracket. -/
theorem stringify_head (N : Numeral) (v : Json) :
    ∃ c r, stringify N v = c :: r ∧ isBlank c = false ∧ c ≠ ']' := by
  match v with
  | .null => exact ⟨_, _, rfl, by decide, by decide⟩
  | .bool true => exact ⟨_, _, rfl, by decide, by decide⟩
  | .bool false => exact ⟨_, _, rfl, by decide, by decide⟩
  | .num .nan => exact ⟨_, _, rfl, by decide, by decide⟩
  | .num (.inf _) => exact ⟨_, _, rfl, by decide, by decide⟩
  | .num (.fin q) =>
      obtain ⟨c, r, hcr⟩ := List.exists_cons_of_ne_nil (N.print_ne_nil q)
      have hc : isNumeralChar c = true := N.print_chars q c (by simp [hcr])
      obtain ⟨hb, -, -, -, -, -, hne, -⟩ := ne_of_isNumeralChar hc
      exact ⟨c, r, by rw [stringify, chars_eq, hcr], hb, hne⟩
  | .str s => exact ⟨_, _, rfl, by decide, by decide⟩
  | .arr [] => exact ⟨_, _, rfl, by decide, by decide⟩
  | .arr (_ :: _) => exact ⟨_, _, rfl, by decide, by decide⟩
  | .obj [] => exact ⟨_, _, rfl, by decide, by decide⟩
  | .obj (_ :: _) => exact ⟨_, _, rfl, by decide, by decide⟩

theorem takeWhile_append_of_end {cs r : List Char} (h : ∀ c ∈ cs, isNumeralChar c = true)
    (hr : NumeralEnd r) : (cs ++ r).takeWhile isNumeralChar = cs ∧
      (cs ++ r).dropWhile isNumeralChar = r := by
  induction cs with
  | nil =>
      cases r with
      | nil => simp
      | cons c r =>
          have hc : isNumeralChar c = false := hr c (by simp)
          simp [hc]
  | cons c cs ih =>
      have hc := h c (by simp)
      obtain ⟨h1, h2⟩ := ih fun d hd => h d (by simp [hd])
      simp [hc, h1, h2]

/-- A numeral is read as the number it prints. -/
theorem readValue_numeral (N : Numeral) (n : ℕ) (q : ℚ) {r : List Char} (hr : NumeralEnd r) :
    readValue N (n + 1) ((N.print q).toList ++ r) = some (.num (.fin q), r) := by
  obtain ⟨c, cs, hcs⟩ := List.exists_cons_of_ne_nil (N.print_ne_nil q)
  have hall : ∀ d ∈ (N.print q).toList, isNumeralChar d = true := N.print_chars q
  obtain ⟨htake, hdrop⟩ := takeWhile_append_of_end hall hr
  obtain ⟨hb, hn, ht, hf, hq, hbr, -, hbc⟩ := ne_of_isNumeralChar (hall c (by simp [hcs]))
  have hskip : skipBlanks ((N.print q).toList ++ r) = (N.print q).toList ++ r := by
    rw [hcs]
    exact skipBlanks_cons hb
  rw [readValue, hskip]
  split
  all_goals first
    | (rename_i heq
       rw [hcs] at heq
       injection heq with h1 _
       exact absurd h1 (by assumption))
    | skip
  simp [htake, hdrop, N.read_print]

mutual

/-- **Round trip.** What `stringify` writes is read back, whatever follows it. Induction on
the value, along the recursion of the writer. -/
theorem readValue_stringify (N : Numeral) : ∀ (v : Json) (n : ℕ) (r : List Char),
    readSize v ≤ n → NumeralEnd r → readValue N n (stringify N v ++ r) = some (wire v, r)
  | .null, n + 1, r, _, _ => by simp [stringify, readValue, skipBlanks, isBlank, wire]
  | .bool true, n + 1, r, _, _ => by simp [stringify, readValue, skipBlanks, isBlank, wire]
  | .bool false, n + 1, r, _, _ => by simp [stringify, readValue, skipBlanks, isBlank, wire]
  | .num .nan, n + 1, r, _, _ => by simp [stringify, readValue, skipBlanks, isBlank, wire]
  | .num (.inf _), n + 1, r, _, _ => by simp [stringify, readValue, skipBlanks, isBlank, wire]
  | .num (.fin q), n + 1, r, _, hr => by
      rw [stringify, chars_eq, wire]
      exact readValue_numeral N n q hr
  | .str s, n + 1, r, _, _ => by
      simp [stringify, quote, readValue, skipBlanks, isBlank, wire, readString_body]
  | .arr [], n + 1, r, _, _ => by
      simp [stringify, readValue, skipBlanks, isBlank, wire, wireElems]
  | .arr (x :: xs), n + 1, r, h, _ => by
      obtain ⟨c, cs, hc, hblank, hne⟩ := stringify_head N x
      have helems := readElems_stringify N (x :: xs) n r (by simp)
        (by simp only [readSize] at h; omega)
      simp only [hc, List.cons_append, List.append_assoc] at helems
      simp only [stringify, hc, List.cons_append, readValue, wire]
      rw [skipBlanks_cons (by decide)]
      simp only [List.append_assoc]
      rw [skipBlanks_cons hblank]
      split
      · rename_i heq
        injection heq with h1 _
        exact absurd h1 hne
      · simp [helems]
  | .obj [], n + 1, r, _, _ => by
      simp [stringify, readValue, skipBlanks, isBlank, wire, wireFields]
  | .obj ((k, v) :: fs), n + 1, r, h, _ => by
      have hfields := readFields_stringify N ((k, v) :: fs) n r (by simp)
        (by simp only [readSize] at h; omega)
      simp only [quote, chars_eq, List.cons_append] at hfields
      simp only [stringify, quote, chars_eq, List.cons_append, readValue, wire]
      rw [skipBlanks_cons (by decide)]
      simp only [List.append_assoc, List.cons_append, List.nil_append]
      rw [skipBlanks_cons (by decide)]
      simp only [List.append_assoc, List.cons_append, List.nil_append] at hfields
      simp [hfields]
  | .null, 0, r, h, _ => by simp [readSize] at h
  | .bool _, 0, r, h, _ => by simp [readSize] at h
  | .num _, 0, r, h, _ => by simp [readSize] at h
  | .str _, 0, r, h, _ => by simp [readSize] at h
  | .arr _, 0, r, h, _ => by simp [readSize] at h
  | .obj _, 0, r, h, _ => by simp [readSize] at h

/-- The elements of a written array are read back. -/
theorem readElems_stringify (N : Numeral) : ∀ (xs : List Json) (n : ℕ) (r : List Char),
    xs ≠ [] → readSizeElems xs ≤ n →
    readElems N n ((match xs with
      | [] => []
      | x :: xs => stringify N x ++ stringifyElems N xs) ++ r) = some (wireElems xs, r)
  | [], _, _, h, _ => absurd rfl h
  | _ :: _, 0, _, _, h => by simp [readSizeElems] at h
  | [x], n + 1, r, _, h => by
      simp only [readSizeElems] at h
      have hx := readValue_stringify N x n (']' :: r) (by omega) (numeralEnd_cons (by decide))
      simp [stringifyElems, readElems, hx, skipBlanks, isBlank, wireElems]
  | x :: y :: ys, n + 1, r, _, h => by
      simp only [readSizeElems] at h
      have hx := readValue_stringify N x n (stringifyElems N (y :: ys) ++ r) (by omega)
        (numeralEnd_elems N _ _)
      have hys := readElems_stringify N (y :: ys) n r (by simp)
        (by simp only [readSizeElems]; omega)
      simp only [stringifyElems, List.cons_append, List.append_assoc] at hx hys
      simp [stringifyElems, readElems, hx, hys, skipBlanks, isBlank, wireElems]

/-- The fields of a written object are read back. -/
theorem readFields_stringify (N : Numeral) :
    ∀ (fs : List (String × Json)) (n : ℕ) (r : List Char), fs ≠ [] → readSizeFields fs ≤ n →
    readFields N n ((match fs with
      | [] => []
      | (k, v) :: fs => quote k ++ ':' :: (stringify N v ++ stringifyFields N fs)) ++ r) =
        some (wireFields fs, r)
  | [], _, _, h, _ => absurd rfl h
  | _ :: _, 0, _, _, h => by simp [readSizeFields] at h
  | [(k, v)], n + 1, r, _, h => by
      simp only [readSizeFields] at h
      have hv := readValue_stringify N v n ('}' :: r) (by omega) (numeralEnd_cons (by decide))
      simp [stringifyFields, quote, readFields, readString_body, hv, skipBlanks, isBlank,
        wireFields]
  | (k, v) :: (l, w) :: fs, n + 1, r, _, h => by
      simp only [readSizeFields] at h
      have hv := readValue_stringify N v n (stringifyFields N ((l, w) :: fs) ++ r) (by omega)
        (numeralEnd_fields N _ _)
      have hfs := readFields_stringify N ((l, w) :: fs) n r (by simp)
        (by simp only [readSizeFields]; omega)
      simp only [stringifyFields, quote, chars_eq, List.cons_append, List.append_assoc,
        List.nil_append] at hv hfs
      simp [stringifyFields, quote, readFields, readString_body, hv, hfs, skipBlanks, isBlank,
        wireFields]

end

/-- Values of one text are equal up to their non-finite numbers. -/
theorem stringify_inj {N : Numeral} {v w : Json} (h : stringify N v = stringify N w) :
    wire v = wire w := by
  have hv := readValue_stringify N v (readSize v + readSize w) [] (by omega) numeralEnd_nil
  have hw := readValue_stringify N w (readSize v + readSize w) [] (by omega) numeralEnd_nil
  rw [h, hw] at hv
  simpa using hv.symm

end Js
