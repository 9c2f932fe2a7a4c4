import NoGhost.Platform
import NoGhost.Js.Object

/-!
# Canonical Serialization

The model of `common/canonical.ts`: canonical JSON text with recursively sorted keys, its
UTF-8 bytes and hashes.

`sortValue` rebuilds an object by assigning its sorted keys to a fresh one. Two names are
special there. Assigning to `__proto__` sets the prototype and makes no property, so the
field is lost. An object with a property `constructor` of its own is not recognised as a
plain object, and is left as it is, at this level and below.

## Main results

* `sortFields_perm`: sorting forgets the order of the fields.
* `sortValue_eq_of_canonicalBytes`: equal canonical bytes come from values that sort to the
  same value, up to non-finite numbers.
-/

open Js

namespace NoGhost

/-! ### Canonical JSON -/

/-- The UTF-16 code units of the character `c` in front of the characters `cs`. What stands
for a lone half is one unit; a high half in front of a low one, which no JavaScript string
has, is taken as the character it is. -/
def charUnits (c : Char) (cs : List Char) : List ℕ :=
  if c.toNat < 65536 then [c.toNat]
  else if firstHalf ≤ c.toNat ∧ ¬ (isHigh c && cs.head?.any isLow) then [halfUnit c]
  else [55296 + (c.toNat - 65536) / 1024, 56320 + (c.toNat - 65536) % 1024]

/-- The UTF-16 code units of a text, by which keys are compared. -/
def textUnits : List Char → List ℕ
  | [] => []
  | c :: cs => charUnits c cs ++ textUnits cs

/-- The UTF-16 code units of a string, by which JavaScript compares strings. -/
def codeUnits (s : String) : List ℕ := textUnits (chars s)

/-- `.sort()` on the fields of an object, by name. -/
def sortFields (fields : List (String × Json)) : List (String × Json) :=
  fields.insertionSort fun f g => codeUnits f.1 ≤ codeUnits g.1

mutual

/-- `sortValue`: the properties of a plain object are sorted by name, at every level. -/
def sortValue : Json → Json
  | .arr xs => .arr (sortElems xs)
  | .obj fields =>
      if (fields.lookup "constructor").isSome then .obj fields
      else .obj (ownOrder (sortFields (sortedValues fields)))
  | v => v

/-- `sortValue` on every element of an array. -/
def sortElems : List Json → List Json
  | [] => []
  | x :: xs => sortValue x :: sortElems xs

/-- The fields that assignment to a fresh object creates, with their sorted values. -/
def sortedValues : List (String × Json) → List (String × Json)
  | [] => []
  | (k, v) :: fields =>
      if k = "__proto__" then sortedValues fields
      else (k, sortValue v) :: sortedValues fields

end

/-! ### What sorting does -/

/-- The three ways a character is encoded: as itself, as a half that stands alone, or as the
two units of a pair. -/
theorem charUnits_cases (c : Char) (cs : List Char) :
    (charUnits c cs = [c.toNat] ∧ isHighUnit c.toNat = false ∧ isLowUnit c.toNat = false) ∨
      (charUnits c cs = [halfUnit c] ∧ firstHalf ≤ c.toNat ∧
        (isHigh c = true → cs.head?.any isLow = false)) ∨
      ∃ hi lo, charUnits c cs = [hi, lo] ∧ isHighUnit hi = true ∧ isLowUnit lo = true ∧
        c.toNat = 65536 + 1024 * (hi - 55296) + (lo - 56320) := by
  have hvalid := c.valid
  have hcn : c.toNat = c.val.toNat := rfl
  simp only [UInt32.isValidChar, Nat.isValidChar] at hvalid
  simp only [isHighUnit, isLowUnit, Bool.and_eq_true, Bool.and_eq_false_imp, decide_eq_true_eq,
    decide_eq_false_iff_not]
  rw [charUnits]
  split_ifs with hbmp hlone
  · exact .inl ⟨rfl, by omega, by omega⟩
  · exact .inr (.inl ⟨rfl, hlone.1, fun hhigh => by simpa [hhigh] using hlone.2⟩)
  · exact .inr (.inr ⟨_, _, rfl, by omega, by omega, by omega⟩)

/-- The unit that opens a pair does not close one. -/
theorem isLowUnit_of_isHighUnit {n : ℕ} (h : isHighUnit n = true) : isLowUnit n = false := by
  simp only [isHighUnit, isLowUnit, Bool.and_eq_true, Bool.and_eq_false_imp, decide_eq_true_eq,
    decide_eq_false_iff_not] at h ⊢
  omega

/-- The unit of a half opens or closes a pair. -/
theorem isHighUnit_or_isLowUnit {c : Char} (h : firstHalf ≤ c.toNat) :
    isHighUnit (halfUnit c) = true ∨ isLowUnit (halfUnit c) = true := by
  have hlt := toNat_lt c
  simp only [isHighUnit, isLowUnit, Bool.and_eq_true, decide_eq_true_eq]
  simp only [halfUnit, firstHalf] at h ⊢
  omega

/-- Where the units of a text go on with one that closes a pair, a low half stands there. -/
theorem isLow_of_textUnits {cs : List Char} {u : ℕ} {us : List ℕ} (h : textUnits cs = u :: us)
    (hu : isLowUnit u = true) : cs.head?.any isLow = true := by
  cases cs with
  | nil => cases h
  | cons c cs =>
      rw [textUnits] at h
      rcases charUnits_cases c cs with ⟨heq, -, hlow⟩ | ⟨heq, hhalf, -⟩ | ⟨hi, lo, heq, hhigh, -⟩
      · rw [heq] at h
        obtain ⟨rfl, -⟩ := List.cons.inj h
        rw [hlow] at hu
        cases hu
      · rw [heq] at h
        obtain ⟨rfl, -⟩ := List.cons.inj h
        exact (isLow_eq_isLowUnit hhalf).trans hu
      · rw [heq] at h
        obtain ⟨rfl, -⟩ := List.cons.inj h
        rw [isLowUnit_of_isHighUnit hhigh] at hu
        cases hu

/-- A half that stands alone is not taken for a pair. -/
theorem halfUnit_ne_pair {c : Char} {s : List Char} {hi lo : ℕ} {us : List ℕ}
    (hhalf : firstHalf ≤ c.toNat) (halone : isHigh c = true → s.head?.any isLow = false)
    (hhi : isHighUnit hi = true) (hlo : isLowUnit lo = true) :
    halfUnit c :: textUnits s ≠ hi :: lo :: us := by
  intro h
  obtain ⟨rfl, htail⟩ := List.cons.inj h
  rw [← isHigh_eq_isHighUnit hhalf] at hhi
  rw [isLow_of_textUnits htail hlo] at halone
  exact absurd (halone hhi) (by decide)

/-- The code units of a character determine it, and where it ends. -/
theorem charUnits_append_inj {c d : Char} {s t : List Char}
    (h : charUnits c s ++ textUnits s = charUnits d t ++ textUnits t) :
    c = d ∧ textUnits s = textUnits t := by
  rcases charUnits_cases c s with ⟨hc, hhc, hlc⟩ | ⟨hc, hhalf, halone⟩ |
      ⟨hi, lo, hc, hhi, hlo, hcn⟩ <;>
    rcases charUnits_cases d t with ⟨hd, hhd, hld⟩ | ⟨hd, hhalf', halone'⟩ |
      ⟨hi', lo', hd, hhi', hlo', hdn⟩ <;>
    rw [hc, hd] at h <;>
    simp only [List.cons_append, List.nil_append] at h
  · obtain ⟨hn, htail⟩ := List.cons.inj h
    exact ⟨Char.toNat_inj.mp hn, htail⟩
  · obtain ⟨hn, -⟩ := List.cons.inj h
    rw [hn] at hhc hlc
    rcases isHighUnit_or_isLowUnit hhalf' with hu | hu <;> simp_all
  · obtain ⟨rfl, -⟩ := List.cons.inj h
    simp_all
  · obtain ⟨hn, -⟩ := List.cons.inj h
    rw [← hn] at hhd hld
    rcases isHighUnit_or_isLowUnit hhalf with hu | hu <;> simp_all
  · obtain ⟨hn, htail⟩ := List.cons.inj h
    refine ⟨?_, htail⟩
    rw [← unitChar_halfUnit hhalf, hn, unitChar_halfUnit hhalf']
  · exact absurd h (halfUnit_ne_pair hhalf halone hhi' hlo')
  · obtain ⟨rfl, -⟩ := List.cons.inj h
    simp_all
  · exact absurd h.symm (halfUnit_ne_pair hhalf' halone' hhi hlo)
  · simp only [List.cons.injEq] at h
    obtain ⟨rfl, rfl, htail⟩ := h
    exact ⟨Char.toNat_inj.mp (hcn.trans hdn.symm), htail⟩

/-- The code units tell the text. -/
theorem codeUnits_injective : Function.Injective codeUnits := by
  have htext : Function.Injective textUnits := by
    intro s t h
    have hne : ∀ (c : Char) (l : List Char), textUnits (c :: l) ≠ [] := by
      intro c l
      rw [textUnits, charUnits]
      split_ifs <;> simp
    induction s generalizing t with
    | nil =>
        cases t with
        | nil => rfl
        | cons d t => exact absurd h.symm (hne d t)
    | cons c s ih =>
        cases t with
        | nil => exact absurd h (hne c s)
        | cons d t =>
            obtain ⟨rfl, htail⟩ := charUnits_append_inj h
            rw [ih htail]
  intro s t h
  rw [codeUnits, codeUnits, chars_eq, chars_eq] at h
  exact String.toList_inj.mp (htext h)

/-- Sorting the fields is a permutation. -/
theorem perm_sortFields (fields : List (String × Json)) : (sortFields fields).Perm fields :=
  List.perm_insertionSort _ fields

/-- Sorting forgets the order of fields with distinct names. -/
theorem sortFields_perm {fields fields' : List (String × Json)} (h : fields.Perm fields')
    (hnd : (fields.map Prod.fst).Nodup) : sortFields fields = sortFields fields' := by
  have : Std.Total fun f g : String × Json => codeUnits f.1 ≤ codeUnits g.1 :=
    ⟨fun f g => le_total (codeUnits f.1) (codeUnits g.1)⟩
  have : IsTrans (String × Json) fun f g => codeUnits f.1 ≤ codeUnits g.1 :=
    ⟨fun _ _ _ => le_trans⟩
  have hsorted : ∀ l : List (String × Json),
      (sortFields l).Pairwise fun f g => codeUnits f.1 ≤ codeUnits g.1 :=
    List.pairwise_insertionSort _
  refine List.Perm.eq_of_pairwise (fun f g hf hg hfg hgf => ?_) (hsorted fields)
    (hsorted fields') ((perm_sortFields fields).trans (h.trans (perm_sortFields fields').symm))
  have hf' := (perm_sortFields fields).mem_iff.mp hf
  have hg' := h.mem_iff.mpr ((perm_sortFields fields').mem_iff.mp hg)
  exact List.inj_on_of_nodup_map hnd hf' hg' (codeUnits_injective (le_antisymm hfg hgf))

theorem sortedValues_eq_map (fields : List (String × Json)) : sortedValues fields =
    (fields.filter fun f => f.1 ≠ "__proto__").map fun f => (f.1, sortValue f.2) := by
  induction fields with
  | nil => rfl
  | cons f fields ih =>
      rw [sortedValues, ih]
      split
      next h => rw [List.filter_cons_of_neg (by simpa using h)]
      next h => rw [List.filter_cons_of_pos (by simpa using h), List.map_cons]

/-- Sorting leaves primitive values alone. -/
theorem sortValue_of_primitive {v : Json} (h : v.isObject = false) : sortValue v = v := by
  cases v with
  | arr xs => cases h
  | obj fs => cases h
  | _ => rfl

/-- Sorting inside the values keeps the names distinct. -/
theorem nodup_sortedValues {fields : List (String × Json)} (h : (fields.map Prod.fst).Nodup) :
    ((sortedValues fields).map Prod.fst).Nodup := by
  rw [sortedValues_eq_map, List.map_map]
  exact (List.filter_sublist.map _).nodup h

/-- What sorts to a primitive value is that value. -/
theorem eq_of_sortValue_primitive {v w : Json} (h : sortValue v = w) (hw : w.isObject = false) :
    v = w := by
  cases v with
  | arr xs => rw [← h, sortValue] at hw; cases hw
  | obj fs =>
      rw [sortValue] at h
      split at h <;> rw [← h] at hw <;> cases hw
  | _ => exact h

/-- Sorting keeps the primitive values that are read under a name, and makes no new ones. -/
theorem get?_sortValue {v : Json} (hv : ∀ fs, v = .obj fs → (fs.map Prod.fst).Nodup)
    {k : String} (hk : k ≠ "__proto__") {w : Json} (hw : w.isObject = false) :
    (sortValue v).get? k = some w ↔ v.get? k = some w := by
  cases v with
  | obj fields =>
      rw [sortValue]
      split
      · exact Iff.rfl
      · have hnd := nodup_sortedValues (hv fields rfl)
        have hperm := (perm_ownOrder (sortFields (sortedValues fields))).trans
          (perm_sortFields (sortedValues fields))
        have hlookup : (ownOrder (sortFields (sortedValues fields))).lookup k =
            (fields.lookup k).map sortValue := by
          rw [lookup_perm hperm ((hperm.map _).nodup_iff.mpr hnd), sortedValues_eq_map,
            lookup_map_snd, lookup_filter_ne hk]
        simp only [Json.get?, hlookup, Option.map_eq_some_iff]
        constructor
        · rintro ⟨w', hw', hs⟩
          rw [hw', eq_of_sortValue_primitive hs hw]
        · intro h
          exact ⟨_, h, sortValue_of_primitive hw⟩
  | _ => exact Iff.rfl

variable (P : Platform)

/-- `canonicalJson`: the text of the sorted value. -/
def canonicalJson (v : Json) : List Char := stringify P.numeral (sortValue v)

/-- `canonicalBytes`. The text of `undefined` is undefined, and encodes to no bytes. -/
def canonicalBytes : Option Json → Bytes
  | none => []
  | some v => utf8 (canonicalJson P v)

/-- `sha256Hex` of bytes, the digest in hexadecimal. -/
def sha256Hex (data : Bytes) : String := bytesToHex (P.sha256 data)

/-- `sha256Hex` of a string, by its UTF-8 bytes. -/
def sha256HexStr (data : String) : String := sha256Hex P (encode data)

/-- `hashValue`: the hash of the canonical bytes. -/
def hashValue (v : Option Json) : String := sha256Hex P (canonicalBytes P v)

/-! ### What the bytes determine -/

/-- Equal canonical bytes come from values that sort alike. -/
theorem sortValue_eq_of_canonicalBytes {v w : Json}
    (h : canonicalBytes P (some v) = canonicalBytes P (some w)) :
    wire (sortValue v) = wire (sortValue w) :=
  stringify_inj (utf8_injective h)

/-- Values of equal canonical bytes have the same strings and finite numbers under a name. -/
theorem get?_of_canonicalBytes {v w : Json} (hv : ∀ fs, v = .obj fs → (fs.map Prod.fst).Nodup)
    (hw : ∀ fs, w = .obj fs → (fs.map Prod.fst).Nodup)
    (h : canonicalBytes P (some v) = canonicalBytes P (some w)) {k : String}
    (hk : k ≠ "__proto__") {x : Json} (hx : x.Solid) :
    v.get? k = some x ↔ w.get? k = some x := by
  have hget := congrArg (Json.get? · k) (sortValue_eq_of_canonicalBytes P h)
  simp only [get?_wire] at hget
  rw [← get?_sortValue hv hk hx.isObject, ← get?_sortValue hw hk hx.isObject,
    ← map_wire_eq_some hx, hget, map_wire_eq_some hx]

end NoGhost
