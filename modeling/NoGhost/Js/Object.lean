import NoGhost.Js.Text

/-!
# Reading Objects That Travelled

What a reader finds in an object that was parsed: its names are distinct at every level
(`Json.Distinct`), so that reading a property does not depend on the order of the fields.
`sent v` is what arrives when `v` is sent as JSON text.

## Main results

* `lookup_perm`: reading a property is insensitive to the order of distinct names.
* `parse_distinct`: a parsed value has distinct names at every level.
* `parse_stringify`: what is sent arrives as `sent`.
* `get?_sent`: reading a property of what arrives.
-/

namespace Js

/-! ### Fields with distinct names -/

section Fields

variable {V W : Type} {k : String} {l l' : List (String × V)}

/-- A field of another name in front is passed over. -/
theorem lookup_cons_of_ne {f : String × V} (h : k ≠ f.1) :
    (f :: l).lookup k = l.lookup k := by
  obtain ⟨k', v⟩ := f
  have hk : (k == k') = false := beq_eq_false_iff_ne.mpr h
  rw [List.lookup_cons, hk]

/-- With distinct names, reading a property finds exactly the fields. -/
theorem lookup_eq_some_iff_mem (h : (l.map Prod.fst).Nodup) {v : V} :
    l.lookup k = some v ↔ (k, v) ∈ l := by
  induction l with
  | nil => simp
  | cons f l ih =>
      obtain ⟨k', v'⟩ := f
      simp only [List.map_cons, List.nodup_cons] at h
      by_cases hk : k = k'
      · subst hk
        have hv : (k, v) ∉ l := fun hm => h.1 (List.mem_map_of_mem hm)
        simp [hv, eq_comm]
      · rw [lookup_cons_of_ne hk, ih h.2]
        simp [hk]

/-- Reading a property does not depend on the order of fields with distinct names. -/
theorem lookup_perm (h : l.Perm l') (hnd : (l.map Prod.fst).Nodup) (k : String) :
    l.lookup k = l'.lookup k := by
  refine Option.ext fun v => ?_
  rw [lookup_eq_some_iff_mem hnd, lookup_eq_some_iff_mem ((h.map _).nodup_iff.mp hnd), h.mem_iff]

/-- A lookup in mapped fields is the mapped value of a lookup. -/
theorem lookup_map_snd (g : V → W) (l : List (String × V)) (k : String) :
    (l.map fun f => (f.1, g f.2)).lookup k = (l.lookup k).map g := by
  induction l with
  | nil => rfl
  | cons f l ih =>
      rw [List.map_cons, List.lookup_cons, List.lookup_cons, ih]
      cases k == f.1 <;> rfl

/-- Fields of another name may be taken out before a lookup. -/
theorem lookup_filter_ne {k' : String} (h : k ≠ k') (l : List (String × V)) :
    (l.filter fun f => f.1 ≠ k').lookup k = l.lookup k := by
  induction l with
  | nil => rfl
  | cons f l ih =>
      by_cases hf : f.1 = k'
      · rw [List.filter_cons_of_neg (by simpa using hf), ih, lookup_cons_of_ne (hf ▸ h)]
      · rw [List.filter_cons_of_pos (by simpa using hf)]
        by_cases hk : k = f.1
        · subst hk
          rw [List.lookup_cons_self, List.lookup_cons_self]
        · rw [lookup_cons_of_ne hk, lookup_cons_of_ne hk, ih]

end Fields

/-! ### Distinct names at every level -/

mutual

/-- Every object inside has distinct names, as every object that the program builds or parses has.
-/
def Json.Distinct : Json → Prop
  | .arr xs => DistinctElems xs
  | .obj fs => (fs.map Prod.fst).Nodup ∧ DistinctValues fs
  | _ => True

/-- `Distinct` of every element of an array. -/
def DistinctElems : List Json → Prop
  | [] => True
  | x :: xs => x.Distinct ∧ DistinctElems xs

/-- `Distinct` of every value of an object. -/
def DistinctValues : List (String × Json) → Prop
  | [] => True
  | (_, v) :: fs => v.Distinct ∧ DistinctValues fs

end

/-- The recursion over the fields as a statement about all of them. -/
theorem distinctValues_iff {fs : List (String × Json)} :
    DistinctValues fs ↔ ∀ f ∈ fs, f.2.Distinct := by
  induction fs with
  | nil => simp [DistinctValues]
  | cons f fs ih => simp [DistinctValues, ih]

/-- The properties of a value with distinct names have distinct names. -/
theorem Json.Distinct.get? {v w : Json} {k : String} (h : v.Distinct) (hk : v.get? k = some w) :
    w.Distinct := by
  cases v with
  | obj fs =>
      exact distinctValues_iff.mp h.2 (k, w) ((lookup_eq_some_iff_mem h.1).mp hk)
  | _ => cases hk

/-! ### Building objects -/

/-- The order in which an object lists its own keys is a permutation of that in which they were
defined. -/
theorem perm_ownOrder (fs : List (String × Json)) : (ownOrder fs).Perm fs := by
  have hsplit := List.filter_append_perm (fun f : String × Json => (arrayIndex f.1).isSome) fs
  have hnot : (fs.filter fun f => (arrayIndex f.1).isNone) =
      fs.filter fun f => !(arrayIndex f.1).isSome := by
    simp
  rw [ownOrder, hnot]
  exact ((List.perm_insertionSort _ _).append_right _).trans hsplit

/-- `define` keeps names distinct, and keeps any property its values share. -/
theorem define_spec {acc : List (String × Json)} {k : String} {v : Json}
    (hnd : (acc.map Prod.fst).Nodup) (hacc : ∀ f ∈ acc, f.2.Distinct) (hv : v.Distinct) :
    ((define acc k v).map Prod.fst).Nodup ∧ ∀ f ∈ define acc k v, f.2.Distinct := by
  rw [define]
  split
  next h =>
    have hkeys : (acc.map fun f => if f.1 == k then (k, v) else f).map Prod.fst =
        acc.map Prod.fst := by
      rw [List.map_map]
      refine List.map_congr_left fun f _ => ?_
      simp only [Function.comp_apply]
      split
      next hf => exact (beq_iff_eq.mp hf).symm
      next => rfl
    refine ⟨hkeys ▸ hnd, fun f hf => ?_⟩
    obtain ⟨f', hf', rfl⟩ := List.mem_map.mp hf
    split
    · exact hv
    · exact hacc f' hf'
  next h =>
    have hk : k ∉ acc.map Prod.fst := by
      intro hmem
      obtain ⟨f, hf, rfl⟩ := List.mem_map.mp hmem
      exact h (List.any_eq_true.mpr ⟨f, hf, by simp⟩)
    refine ⟨?_, fun f hf => ?_⟩
    · rw [List.map_append, List.nodup_append_comm]
      simpa using ⟨by simpa using hk, hnd⟩
    · rcases List.mem_append.mp hf with hf | hf
      · exact hacc f hf
      · rw [List.mem_singleton.mp hf]
        exact hv

/-- Properties that are defined one after the other have distinct names, and values that were among
those defined. Induction on the fields, with the object built so far. -/
theorem defineAll_spec (fs acc : List (String × Json)) (hnd : (acc.map Prod.fst).Nodup)
    (hacc : ∀ f ∈ acc, f.2.Distinct) (hfs : ∀ f ∈ fs, f.2.Distinct) :
    let out := fs.foldl (fun acc f => define acc f.1 f.2) acc
    (out.map Prod.fst).Nodup ∧ ∀ f ∈ out, f.2.Distinct := by
  induction fs generalizing acc with
  | nil => exact ⟨hnd, hacc⟩
  | cons f fs ih =>
      obtain ⟨hnd', hacc'⟩ := define_spec (k := f.1) hnd hacc (hfs f (by simp))
      exact ih _ hnd' hacc' fun g hg => hfs g (by simp [hg])

/-- Nothing is defined under another name than those of the fields. -/
theorem defineAll_names (fs acc : List (String × Json)) {k : String}
    (h : k ∈ (fs.foldl (fun acc f => define acc f.1 f.2) acc).map Prod.fst) :
    k ∈ acc.map Prod.fst ∨ k ∈ fs.map Prod.fst := by
  induction fs generalizing acc with
  | nil => exact .inl h
  | cons f fs ih =>
      rw [List.map_cons, List.mem_cons]
      rcases ih _ h with h | h
      · obtain ⟨g, hg, rfl⟩ := List.mem_map.mp h
        change g ∈ define acc f.1 f.2 at hg
        rw [define] at hg
        split at hg
        · obtain ⟨g', hg', rfl⟩ := List.mem_map.mp hg
          split
          · exact .inr (.inl rfl)
          · exact .inl (List.mem_map_of_mem hg')
        · rcases List.mem_append.mp hg with hg | hg
          · exact .inl (List.mem_map_of_mem hg)
          · exact .inr (.inl (congrArg Prod.fst (List.mem_singleton.mp hg)))
      · exact .inr (.inr h)

/-- Distinct names are defined in their order, one after the other. -/
theorem defineAll_of_nodup (fs acc : List (String × Json))
    (h : ((acc ++ fs).map Prod.fst).Nodup) :
    fs.foldl (fun acc f => define acc f.1 f.2) acc = acc ++ fs := by
  induction fs generalizing acc with
  | nil => simp
  | cons f fs ih =>
      have hnew : define acc f.1 f.2 = acc ++ [f] := by
        rw [define, if_neg]
        rw [List.any_eq_true]
        rintro ⟨g, hg, hkey⟩
        rw [List.map_append, List.nodup_append] at h
        exact h.2.2 g.1 (List.mem_map_of_mem hg) f.1 (by simp) (beq_iff_eq.mp hkey)
      rw [List.foldl_cons, hnew, ih _ (by simpa using h), List.append_assoc]
      rfl

/-- The recursion of `build` over the fields as a map. -/
theorem buildFields_eq_map (fs : List (String × Json)) :
    buildFields fs = fs.map fun f => (f.1, build f.2) := by
  induction fs with
  | nil => rfl
  | cons f fs ih => rw [buildFields, List.map_cons, ih]

/-- The recursion of `wire` over the fields as a map. -/
theorem wireFields_eq_map (fs : List (String × Json)) :
    wireFields fs = fs.map fun f => (f.1, wire f.2) := by
  induction fs with
  | nil => rfl
  | cons f fs ih => rw [wireFields, List.map_cons, ih]

mutual

/-- What is built has distinct names at every level: a name that comes twice is assigned twice. -/
theorem build_distinct : ∀ v : Json, (build v).Distinct
  | .null => trivial
  | .bool _ => trivial
  | .num _ => trivial
  | .str _ => trivial
  | .arr xs => buildElems_distinct xs
  | .obj fs => by
      obtain ⟨hnd, hall⟩ := defineAll_spec _ [] (by simp) (by simp)
        (distinctValues_iff.mp (buildFields_distinct fs))
      have hperm := perm_ownOrder
        ((buildFields fs).foldl (fun acc f => define acc f.1 f.2) [])
      exact ⟨(hperm.map _).nodup_iff.mpr hnd,
        distinctValues_iff.mpr fun f hf => hall f (hperm.mem_iff.mp hf)⟩

/-- The elements of an array that is built have distinct names at every level. -/
theorem buildElems_distinct : ∀ xs : List Json, DistinctElems (buildElems xs)
  | [] => trivial
  | x :: xs => ⟨build_distinct x, buildElems_distinct xs⟩

/-- The values of an object that is built have distinct names at every level. -/
theorem buildFields_distinct : ∀ fs : List (String × Json), DistinctValues (buildFields fs)
  | [] => trivial
  | (_, v) :: fs => ⟨build_distinct v, buildFields_distinct fs⟩

end

/-- A parsed value has distinct names at every level, whatever its text repeats. -/
theorem parse_distinct {N : Numeral} {text : List Char} {v : Json}
    (h : parse N text = some v) : v.Distinct := by
  rw [parse] at h
  split at h
  next =>
    split at h
    · rw [← Option.some.inj h]
      exact build_distinct _
    · cases h
  next => cases h

/-! ### Sending a value -/

mutual

/-- A value's text has room for all its reads, so the length of the text is fuel enough to read it
back. -/
theorem readSize_le (N : Numeral) : ∀ v : Json, readSize v ≤ (stringify N v).length
  | .null => by simp [readSize, stringify]
  | .bool true => by simp [readSize, stringify]
  | .bool false => by simp [readSize, stringify]
  | .num .nan => by simp [readSize, stringify]
  | .num (.inf _) => by simp [readSize, stringify]
  | .num (.fin q) => by
      rw [stringify, chars_eq]
      exact List.length_pos_iff.mpr (N.print_ne_nil q)
  | .str s => by simp [readSize, stringify, quote]
  | .arr [] => by simp [readSize, readSizeElems, stringify]
  | .arr (x :: xs) => by
      have hx := readSize_le N x
      have hxs := readSizeElems_le N xs
      simp only [readSize, readSizeElems, stringify, List.length_cons, List.length_append]
      omega
  | .obj [] => by simp [readSize, readSizeFields, stringify]
  | .obj ((k, v) :: fs) => by
      have hv := readSize_le N v
      have hfs := readSizeFields_le N fs
      simp only [readSize, readSizeFields, stringify, quote, List.length_cons,
        List.length_append]
      omega

/-- The text of the elements of an array has room for all their reads. -/
theorem readSizeElems_le (N : Numeral) :
    ∀ xs : List Json, readSizeElems xs + 1 ≤ (stringifyElems N xs).length
  | [] => by simp [readSizeElems, stringifyElems]
  | x :: xs => by
      have hx := readSize_le N x
      have hxs := readSizeElems_le N xs
      simp only [readSizeElems, stringifyElems, List.length_cons, List.length_append]
      omega

/-- The text of the fields of an object has room for all their reads. -/
theorem readSizeFields_le (N : Numeral) :
    ∀ fs : List (String × Json), readSizeFields fs + 1 ≤ (stringifyFields N fs).length
  | [] => by simp [readSizeFields, stringifyFields]
  | (k, v) :: fs => by
      have hv := readSize_le N v
      have hfs := readSizeFields_le N fs
      simp only [readSizeFields, stringifyFields, quote, List.length_cons, List.length_append]
      omega

end

/-- What arrives when a value is sent as JSON text: numbers that are not finite as null, and its
properties in their own order. -/
def sent (v : Json) : Json := build (wire v)

/-- **What is sent arrives**: the text of a value is parsed to it, as sending leaves it. -/
theorem parse_stringify (N : Numeral) (v : Json) : parse N (stringify N v) = some (sent v) := by
  have hread := readValue_stringify N v ((stringify N v).length + 1) []
    (Nat.le_succ_of_le (readSize_le N v)) numeralEnd_nil
  rw [List.append_nil] at hread
  rw [parse, hread]
  rfl

/-- Reading a property of what arrives, when its name was sent once. -/
theorem get?_sent {v : Json} (k : String)
    (h : ∀ fs, v = .obj fs → (fs.map Prod.fst).Nodup) :
    (sent v).get? k = (v.get? k).map sent := by
  cases v with
  | obj fs =>
      have hkeys : ((wireFields fs).map Prod.fst) = fs.map Prod.fst := by
        rw [wireFields_eq_map, List.map_map]
        rfl
      have hkeys' : (buildFields (wireFields fs)).map Prod.fst = fs.map Prod.fst := by
        rw [buildFields_eq_map, List.map_map, ← hkeys]
        rfl
      have hnd : ((buildFields (wireFields fs)).map Prod.fst).Nodup := hkeys' ▸ h fs rfl
      have hdef := defineAll_of_nodup (buildFields (wireFields fs)) []
        (by simpa using hnd)
      rw [List.nil_append] at hdef
      change (ownOrder ((buildFields (wireFields fs)).foldl _ [])).lookup k = _
      rw [hdef, lookup_perm (perm_ownOrder _) (((perm_ownOrder _).map _).nodup_iff.mpr hnd),
        buildFields_eq_map, lookup_map_snd, wireFields_eq_map, lookup_map_snd, Option.map_map]
      rfl
  | num n => cases n <;> rfl
  | _ => rfl

/-- Nothing arrives under a name that was not sent. -/
theorem get?_sent_eq_none {v : Json} {k : String} (h : v.get? k = none) :
    (sent v).get? k = none := by
  cases v with
  | obj fs =>
      have hno : k ∉ fs.map Prod.fst := fun hmem => by
        obtain ⟨f, hf, rfl⟩ := List.mem_map.mp hmem
        have := List.lookup_eq_none_iff.mp h f hf
        simp at this
      refine List.lookup_eq_none_iff.mpr fun f hf => ?_
      have hmem := List.mem_map_of_mem (f := Prod.fst) ((perm_ownOrder _).mem_iff.mp hf)
      rcases defineAll_names _ _ hmem with hnil | hmem
      · cases hnil
      · rw [buildFields_eq_map, wireFields_eq_map, List.map_map, List.map_map] at hmem
        have hne : k ≠ f.1 := by
          rintro rfl
          exact hno hmem
        simpa using hne
  | num n => cases n <;> rfl
  | _ => rfl

/-- The names of an object literal are distinct where those of its entries are: an entry that is
undefined only leaves its name out. -/
theorem nodup_object {fields : List (String × Option Json)} (h : (fields.map Prod.fst).Nodup)
    {fs : List (String × Json)} (hfs : object fields = .obj fs) : (fs.map Prod.fst).Nodup := by
  cases hfs
  induction fields with
  | nil => exact List.nodup_nil
  | cons f fields ih =>
      obtain ⟨k, v⟩ := f
      obtain ⟨hk, hnd⟩ := List.nodup_cons.mp h
      cases v with
      | none => exact ih hnd
      | some v =>
          refine List.nodup_cons.mpr ⟨fun hmem => hk ?_, ih hnd⟩
          obtain ⟨g, hg, hgk⟩ := List.mem_map.mp hmem
          obtain ⟨g', hg', hgg⟩ := List.mem_filterMap.mp hg
          obtain ⟨w, -, rfl⟩ := Option.map_eq_some_iff.mp hgg
          exact hgk ▸ List.mem_map_of_mem (f := Prod.fst) hg'

/-- Reading a property of an object literal gives the value that its entry has, if any. -/
theorem get?_object {fields : List (String × Option Json)} (h : (fields.map Prod.fst).Nodup)
    (k : String) : (object fields).get? k = (fields.lookup k).join := by
  induction fields with
  | nil => rfl
  | cons f fields ih =>
      obtain ⟨k', v⟩ := f
      obtain ⟨hk', hnd⟩ := List.nodup_cons.mp h
      have ih := ih hnd
      simp only [object, Json.get?] at ih ⊢
      rcases eq_or_ne k k' with rfl | hk
      · cases v with
        | none =>
            have hnone : fields.lookup k = none := by
              rw [List.lookup_eq_none_iff]
              intro g hg
              rw [bne_iff_ne]
              rintro rfl
              exact hk' (List.mem_map.mpr ⟨g, hg, rfl⟩)
            rw [hnone] at ih
            simpa using ih
        | some v => simp
      · rw [lookup_cons_of_ne (f := (k', v)) hk, ← ih]
        cases v with
        | none => simp
        | some v => simpa using lookup_cons_of_ne (f := (k', v)) hk

/-- Reading a property of an object literal that was sent gives what its entry has become on the
way. -/
theorem get?_sent_object {fields : List (String × Option Json)}
    (h : (fields.map Prod.fst).Nodup) (k : String) :
    (sent (object fields)).get? k = (fields.lookup k).join.map sent := by
  rw [get?_sent k fun _ => nodup_object h, get?_object h]

/-- A property of what is put on the wire is what its value has become. -/
theorem get?_wire (v : Json) (k : String) : (wire v).get? k = (v.get? k).map wire := by
  cases v with
  | obj fs => simp only [wire, Json.get?, wireFields_eq_map, lookup_map_snd]
  | num n => cases n <;> rfl
  | _ => rfl

/-- A string or a finite number, which sending leaves as it is. -/
inductive Json.Solid : Json → Prop
  | str (s : String) : Solid (.str s)
  | num (q : ℚ) : Solid (.num (.fin q))

/-- A solid value is no object. -/
theorem Json.Solid.isObject {v : Json} (h : v.Solid) : v.isObject = false := by
  cases h <;> rfl

/-- Strings and finite numbers travel unchanged, and nothing else becomes one. -/
theorem map_wire_eq_some {v : Option Json} {x : Json} (hx : x.Solid) :
    v.map wire = some x ↔ v = some x := by
  rcases v with - | v
  · simp
  · cases hx <;> cases v with
    | num n => cases n <;> simp [wire]
    | _ => simp [wire]

/-- Strings arrive as they are, and only strings arrive as strings. -/
theorem sent_eq_str {v : Json} {s : String} : sent v = .str s ↔ v = .str s := by
  cases v with
  | num n => cases n <;> simp [sent, wire, build]
  | _ => simp [sent, wire, build]

/-- Finite numbers arrive as they are, and only they arrive as numbers. -/
theorem sent_eq_num {v : Json} {n : Number} : sent v = .num n ↔ v = .num n ∧ ∃ q, n = .fin q := by
  cases v with
  | num m =>
      cases m with
      | fin q =>
          simp only [sent, wire, build, Json.num.injEq]
          constructor
          · rintro rfl
            exact ⟨rfl, q, rfl⟩
          · exact fun h => h.1
      | nan =>
          simp only [sent, wire, build, reduceCtorEq, false_iff, not_and, Json.num.injEq]
          rintro rfl ⟨q, hq⟩
          cases hq
      | inf s =>
          simp only [sent, wire, build, reduceCtorEq, false_iff, not_and, Json.num.injEq]
          rintro rfl ⟨q, hq⟩
          cases hq
  | _ => simp [sent, wire, build]

/-- An object of strings and finite numbers arrives as it was sent, when no name is an index and
each comes once. -/
theorem sent_flat {fields : List (String × Json)} (hnd : (fields.map Prod.fst).Nodup)
    (hname : ∀ f ∈ fields, arrayIndex f.1 = none) (hsolid : ∀ f ∈ fields, f.2.Solid) :
    sent (.obj fields) = .obj fields := by
  have hwire : wireFields fields = fields := by
    rw [wireFields_eq_map]
    refine (List.map_congr_left fun f hf => ?_).trans (List.map_id _)
    obtain ⟨k, v⟩ := f
    cases hsolid _ hf <;> rfl
  have hbuild : buildFields fields = fields := by
    rw [buildFields_eq_map]
    refine (List.map_congr_left fun f hf => ?_).trans (List.map_id _)
    obtain ⟨k, v⟩ := f
    cases hsolid _ hf <;> rfl
  have hnone : fields.filter (fun f => (arrayIndex f.1).isSome) = [] :=
    List.filter_eq_nil_iff.mpr fun f hf => by simp [hname f hf]
  have hall : fields.filter (fun f => (arrayIndex f.1).isNone) = fields :=
    List.filter_eq_self.mpr fun f hf => by simp [hname f hf]
  rw [sent, wire, hwire, build, hbuild, defineAll_of_nodup fields [] (by simpa using hnd),
    List.nil_append, ownOrder, hnone, hall]
  rfl

/-! ### Finite numbers -/

/-- All numbers of the value are finite: its text loses nothing. -/
def Json.Finite (v : Json) : Prop := wire v = v

/-- An array is finite where its elements are. -/
theorem finite_arr {xs : List Json} : Json.Finite (.arr xs) ↔ wireElems xs = xs := by
  rw [Json.Finite, wire, Json.arr.injEq]

/-- An object is finite where its values are. -/
theorem finite_obj {fs : List (String × Json)} :
    Json.Finite (.obj fs) ↔ ∀ f ∈ fs, Json.Finite f.2 := by
  rw [Json.Finite, wire, Json.obj.injEq]
  induction fs with
  | nil => simp [wireFields]
  | cons f fs ih =>
      rw [wireFields, List.cons.injEq, ih, List.forall_mem_cons, Prod.mk.injEq]
      simp [Json.Finite]

/-! ### The length of an object's text -/

/-- What a field adds to the text of an object: its name in quotes, its value, a colon and a comma
or brace. -/
def fieldLength (N : Numeral) (f : String × Json) : ℕ :=
  (quote f.1).length + (stringify N f.2).length + 2

/-- The text of the fields is as long as their lengths say, with one more for the braces. -/
theorem length_stringifyFields (N : Numeral) (fs : List (String × Json)) :
    (stringifyFields N fs).length = (fs.map (fieldLength N)).sum + 1 := by
  induction fs with
  | nil => rfl
  | cons f fs ih =>
      simp only [stringifyFields, List.length_cons, List.length_append, ih, List.map_cons,
        List.sum_cons, fieldLength]
      omega

/-- So is the text of an object that has a field. -/
theorem length_stringify_obj (N : Numeral) {fs : List (String × Json)} (h : fs ≠ []) :
    (stringify N (.obj fs)).length = (fs.map (fieldLength N)).sum + 1 := by
  obtain ⟨f, fs, rfl⟩ := List.exists_cons_of_ne_nil h
  simp only [stringify, List.length_cons, List.length_append, length_stringifyFields,
    List.map_cons, List.sum_cons, fieldLength]
  omega

/-- Every further field makes the text of an object longer, in whichever order they come. -/
theorem length_stringify_lt (N : Numeral) {fs gs rest : List (String × Json)}
    (h : gs.Perm (fs ++ rest)) (hfs : fs ≠ []) (hrest : rest ≠ []) :
    (stringify N (.obj fs)).length < (stringify N (.obj gs)).length := by
  have hgs : gs ≠ [] := by
    rintro rfl
    exact hfs (List.append_eq_nil_iff.mp h.nil_eq.symm).1
  have hsum := (h.map (fieldLength N)).sum_eq
  rw [List.map_append, List.sum_append] at hsum
  obtain ⟨f, rest, rfl⟩ := List.exists_cons_of_ne_nil hrest
  simp only [List.map_cons, List.sum_cons, fieldLength] at hsum
  rw [length_stringify_obj N hfs, length_stringify_obj N hgs, hsum]
  omega

end Js
