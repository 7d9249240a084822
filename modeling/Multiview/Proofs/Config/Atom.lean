import Multiview.Proofs.Config.Written
import Multiview.Proofs.Nal.Lengths
import Multiview.Proofs.Outcome

/-!
Which extradata have a record of the second view. They begin with at least one byte of another record;
then come the size of the atom, the first tag there is, and a record of that size. Everything else is
refused, and no slice reaches outside of the extradata on the way.
-/

namespace Multiview

open Outcome

namespace Config

/-- The extradata hold the record `r` in an atom behind the bytes `a`, and its tag is the first one. -/
def Holds (x r : Bytes) : Prop :=
  ∃ a t, x = a ++ (Bytes.ofNumber 4 (r.length + 8) ++ (atomTag ++ (r ++ t))) ∧
    a.head? = some 1 ∧ (∀ n < a.length + 4, ¬ atomTag <+: x.drop n) ∧
    6 ≤ r.length ∧ r.length + 8 < 2 ^ 32 ∧ r.head? = some 1

/-! ## The tag -/

/-- A tag that is found is the first one. -/
theorem findTag_eq_some {x : Bytes} {offset n : Nat} (h : findTag offset x = some n) :
    ∃ front rest, x = front ++ (atomTag ++ rest) ∧ n = offset + front.length ∧
      ∀ m < front.length, ¬ atomTag <+: x.drop m := by
  induction x generalizing offset with
  | nil => cases h
  | cons b x ih =>
    rw [findTag] at h
    split at h
    · rename_i hhere
      cases h
      have hhere : (b :: x).take 4 = atomTag := eq_of_beq hhere
      refine ⟨[], (b :: x).drop 4, ?_, rfl, fun m hm => absurd hm (Nat.not_lt_zero m)⟩
      rw [← hhere, List.nil_append, List.take_append_drop]
    · rename_i hhere
      obtain ⟨front, rest, rfl, rfl, hfirst⟩ := ih h
      refine ⟨b :: front, rest, rfl, ?_, ?_⟩
      · rw [List.length_cons]
        omega
      · rintro (_ | m) hm
        · intro hp
          rw [List.drop_zero] at hp
          exact hhere (beq_iff_eq.mpr (List.prefix_iff_eq_take.mp hp).symm)
        · exact hfirst m (Nat.lt_of_succ_lt_succ hm)

theorem findTag_le {x : Bytes} {tag : Nat} (h : findTag 0 x = some tag) : tag + 4 ≤ x.length := by
  obtain ⟨front, rest, rfl, rfl, -⟩ := findTag_eq_some h
  simp only [List.length_append, atomTag, List.length_cons, List.length_nil]
  omega

/-! ## The atom around a tag -/

/-- The record of the atom whose tag is at an offset. -/
def recordAt (tag : Nat) (x : Bytes) : Except ConfigError Bytes :=
  let atom := x.drop (tag - 4)
  let size := Bytes.toNumber (atom.take 4)
  if tag ≤ 4 then .error .missingAtom
  else if atom.length < minAtomSize then .error .truncatedAtom
  else if size < minAtomSize ∨ atom.length < size then .error .truncatedAtom
  else if ((atom.take size).drop 8).head? ≠ some 1 then .error .notConfiguration
  else .ok ((atom.take size).drop 8)

theorem secondViewRecord_eq (x : Bytes) : secondViewRecord x =
    if x.length ≤ 4 ∨ x.head? ≠ some 1 then .error .notConfiguration
    else match findTag 0 x with
      | none => .error .missingAtom
      | some tag => recordAt tag x := by
  unfold secondViewRecord recordAt
  generalize findTag 0 x = found
  cases found with
  | none =>
    dsimp only
    split <;> rfl
  | some tag =>
    dsimp only
    repeat' split
    all_goals rfl

theorem recordAt_eq_ok {tag : Nat} {x r : Bytes} (h : recordAt tag x = .ok r) :
    4 < tag ∧ ∃ size, size = Bytes.toNumber ((x.drop (tag - 4)).take 4) ∧ minAtomSize ≤ size ∧
      size ≤ (x.drop (tag - 4)).length ∧ r = ((x.drop (tag - 4)).take size).drop 8 ∧
      r.head? = some 1 := by
  simp only [recordAt, ite_not] at h
  split at h
  · cases h
  · rename_i htag
    split at h
    · cases h
    · split at h
      · cases h
      · rename_i hsize
        obtain ⟨hmin, hmax⟩ := not_or.mp hsize
        split at h
        · rename_i hversion
          cases h
          exact ⟨Nat.lt_of_not_le htag, _, rfl, Nat.le_of_not_lt hmin, Nat.le_of_not_lt hmax, rfl,
            hversion⟩
        · cases h

/-- Why a configuration of the second view is refused. -/
def Refusal (e : ConfigError) : Prop := e = .notConfiguration ∨ e = .missingAtom ∨ e = .truncatedAtom

theorem recordAt_refusal {tag : Nat} {x : Bytes} {e : ConfigError} (h : recordAt tag x = .error e) :
    Refusal e := by
  unfold recordAt at h
  dsimp only at h
  repeat' split at h
  all_goals cases h
  · exact .inr (.inl rfl)
  · exact .inr (.inr rfl)
  · exact .inr (.inr rfl)
  · exact .inl rfl

theorem secondViewRecord_refusal {x : Bytes} {e : ConfigError} (h : secondViewRecord x = .error e) :
    Refusal e := by
  rw [secondViewRecord_eq] at h
  split at h
  · cases h
    exact .inl rfl
  · split at h
    · cases h
      exact .inr (.inl rfl)
    · exact recordAt_refusal h

/-! ## The shape of the extradata -/

/-- A record that the extradata hold is found. -/
theorem Holds.found {x r : Bytes} (h : Holds x r) : secondViewRecord x = .ok r := by
  obtain ⟨a, t, rfl, hversion, hfirst, hmin, hmax, hr⟩ := h
  have hbytes : a ++ (Bytes.ofNumber 4 (r.length + 8) ++ (atomTag ++ (r ++ t))) =
      a ++ Bytes.ofNumber 4 (r.length + 8) ++ (atomTag ++ (r ++ t)) := by
    rw [List.append_assoc]
  have hlen : (a ++ Bytes.ofNumber 4 (r.length + 8)).length = a.length + 4 := by
    rw [List.length_append, Bytes.ofNumber_length]
  have htag : findTag 0 (a ++ (Bytes.ofNumber 4 (r.length + 8) ++ (atomTag ++ (r ++ t)))) =
      some (a.length + 4) := by
    rw [hbytes] at hfirst ⊢
    rw [findTag_first _ _ 0 (by rwa [hlen]), hlen, Nat.zero_add]
  have hatom : Bytes.ofNumber 4 (r.length + 8) ++ (atomTag ++ (r ++ t)) = writeAtom r ++ t := by
    simp only [writeAtom, List.append_assoc]
  rw [hatom] at htag ⊢
  exact secondViewRecord_of_findTag hversion htag hr hmin hmax

/-- An atom is its size, its tag, its record and what is behind it. -/
theorem atom_eq {atom rest : Bytes} {size : Nat} (hrest : atom.drop 4 = atomTag ++ rest)
    (hnumber : size = Bytes.toNumber (atom.take 4)) (hmin : minAtomSize ≤ size)
    (hmax : size ≤ atom.length) :
    ((atom.take size).drop 8).length + 8 = size ∧
      atom = Bytes.ofNumber 4 size ++ (atomTag ++ ((atom.take size).drop 8 ++ atom.drop size)) := by
  rw [minAtomSize] at hmin
  have hlen : ((atom.take size).drop 8).length + 8 = size := by
    rw [List.length_drop, List.length_take, Nat.min_eq_left hmax]
    omega
  refine ⟨hlen, ?_⟩
  have hfour : (atom.take 4).length = 4 := by
    rw [List.length_take]
    omega
  have hfield : Bytes.ofNumber 4 size = atom.take 4 := by
    have hback := Bytes.ofNumber_toNumber (atom.take 4)
    rwa [hfour, ← hnumber] at hback
  have hbehind : rest = atom.drop 8 := by
    have hdrop := congrArg (List.drop 4) hrest
    rw [List.drop_drop] at hdrop
    exact hdrop.symm
  have hrecord : (atom.take size).drop 8 ++ atom.drop size = atom.drop 8 := by
    rw [← List.drop_append_of_le_length (by rw [List.length_take]; omega), List.take_append_drop]
  rw [hfield, hrecord, ← hbehind, ← hrest, List.take_append_drop]

/-- A record that is found is one that the extradata hold. -/
theorem holds_of_found {x r : Bytes} (h : secondViewRecord x = .ok r) : Holds x r := by
  rw [secondViewRecord_eq] at h
  split at h
  · cases h
  · rename_i hbegin
    have hversion : x.head? = some 1 := not_not.mp (not_or.mp hbegin).2
    split at h
    · cases h
    · rename_i tag htag
      obtain ⟨hbehind, size, hnumber, hmin, hmax, hrecord, hr⟩ := recordAt_eq_ok h
      have hinside := findTag_le htag
      obtain ⟨front, rest, hx, hoffset, hfirst⟩ := findTag_eq_some htag
      rw [Nat.zero_add] at hoffset
      -- The atom begins with its size, four bytes before its tag.
      have hrest : (x.drop (tag - 4)).drop 4 = atomTag ++ rest := by
        rw [List.drop_drop, Nat.sub_add_cancel (by omega), hoffset, hx, List.drop_left]
      obtain ⟨hlen, hatom⟩ := atom_eq hrest hnumber hmin hmax
      rw [← hrecord] at hlen hatom
      have hfront : (x.take (tag - 4)).length = tag - 4 := by
        rw [List.length_take]
        omega
      refine ⟨x.take (tag - 4), (x.drop (tag - 4)).drop size, ?_, ?_, ?_, ?_, ?_, hr⟩
      · rw [hlen, ← hatom, List.take_append_drop]
      · rw [List.head?_take, if_neg (by omega), hversion]
      · rw [hfront, Nat.sub_add_cancel (by omega), hoffset]
        exact hfirst
      · rw [minAtomSize] at hmin
        omega
      · have hbound := Bytes.toNumber_lt ((x.drop (tag - 4)).take 4)
        have hfour : ((x.drop (tag - 4)).take 4).length ≤ 4 := List.length_take_le _ _
        have hpow : 256 ^ ((x.drop (tag - 4)).take 4).length ≤ 2 ^ 32 :=
          (Nat.pow_le_pow_right (by decide) hfour).trans (by decide)
        omega

/-! ## Slices -/

/-- `recordAt` slice by slice: each of them is inside of the extradata, and each offset a word. -/
def checkedAt (tag : Nat) (x : Bytes) : Outcome (Except ConfigError Bytes) := do
  if tag ≤ 4 then
    return .error .missingAtom
  let atom ← dropExactly (tag - 4) x
  if atom.length < minAtomSize then
    return .error .truncatedAtom
  let field ← takeExactly 4 atom
  let size := Bytes.toNumber field
  if size < minAtomSize ∨ atom.length < size then
    return .error .truncatedAtom
  let start ← below wordLimit (tag - 4 + 8)
  let stop ← below wordLimit (tag - 4 + size)
  let front ← takeExactly stop x
  let record ← dropExactly start front
  let version ← takeExactly 1 record
  if version.head? ≠ some 1 then
    return .error .notConfiguration
  return .ok record

/-- `secondViewRecord` in the same way. -/
def checkedRecord (x : Bytes) : Outcome (Except ConfigError Bytes) := do
  if x.length ≤ 4 then
    return .error .notConfiguration
  let version ← takeExactly 1 x
  if version.head? ≠ some 1 then
    return .error .notConfiguration
  match findTag 0 x with
  | none => return .error .missingAtom
  | some tag => checkedAt tag x

theorem head?_take_one (x : Bytes) : (x.take 1).head? = x.head? := by
  rw [List.head?_take, if_neg (by decide)]

theorem checkedAt_returns {tag : Nat} {x : Bytes} (hx : Addressable x) (htag : tag + 4 ≤ x.length) :
    Returns (checkedAt tag x) fun r => r = recordAt tag x := by
  unfold checkedAt recordAt
  dsimp only
  split
  · exact .pure rfl
  · refine (dropExactly_returns (by omega)).bind ?_
    rintro _ rfl
    have hatom : (x.drop (tag - 4)).length = x.length - (tag - 4) := List.length_drop
    split
    · exact .pure rfl
    · rename_i hroom
      rw [minAtomSize] at hroom
      refine (takeExactly_returns (by omega)).bind ?_
      rintro _ rfl
      -- From here on the size is known to be in bounds, and no slice reaches beyond the atom.
      split
      · exact .pure rfl
      · rename_i hsize
        obtain ⟨hmin, hmax⟩ := not_or.mp hsize
        rw [minAtomSize] at hmin
        generalize Bytes.toNumber ((x.drop (tag - 4)).take 4) = size at hmin hmax ⊢
        unfold Addressable at hx
        refine (below_returns (by omega)).bind ?_
        rintro _ rfl
        refine (below_returns (by omega)).bind ?_
        rintro _ rfl
        refine (takeExactly_returns (by omega)).bind ?_
        rintro _ rfl
        have hfront : (x.take (tag - 4 + size)).length = tag - 4 + size := by
          rw [List.length_take]
          omega
        refine (dropExactly_returns (by omega)).bind ?_
        rintro _ rfl
        have hrecord : (x.take (tag - 4 + size)).drop (tag - 4 + 8) =
            ((x.drop (tag - 4)).take size).drop 8 := by
          rw [← List.drop_drop, List.drop_take, Nat.add_sub_cancel_left]
        rw [hrecord]
        refine (takeExactly_returns ?_).bind ?_
        · rw [← hrecord, List.length_drop]
          omega
        · rintro _ rfl
          rw [head?_take_one]
          split
          · exact .pure rfl
          · exact .pure rfl

theorem checkedRecord_returns {x : Bytes} (hx : Addressable x) :
    Returns (checkedRecord x) fun r => r = secondViewRecord x := by
  rw [secondViewRecord_eq]
  unfold checkedRecord
  by_cases hshort : x.length ≤ 4
  · rw [if_pos hshort, if_pos (Or.inl hshort)]
    exact .pure rfl
  · rw [if_neg hshort]
    refine (takeExactly_returns (by omega)).bind ?_
    rintro _ rfl
    rw [head?_take_one]
    by_cases hversion : x.head? ≠ some 1
    · rw [if_pos hversion, if_pos (Or.inr hversion)]
      exact .pure rfl
    · rw [if_neg hversion, if_neg (not_or.mpr ⟨hshort, hversion⟩)]
      cases htag : findTag 0 x with
      | none => exact .pure rfl
      | some tag => exact checkedAt_returns hx (findTag_le htag)

/-- A record is found just if the extradata hold it. All other extradata are refused, and no slice is
outside of them. -/
theorem secondViewRecord_spec (x : Bytes) :
    (∀ r, secondViewRecord x = .ok r ↔ Holds x r) ∧
      ((∀ r, ¬ Holds x r) → ∃ e, secondViewRecord x = .error e ∧
        (e = .notConfiguration ∨ e = .missingAtom ∨ e = .truncatedAtom)) ∧
      (Addressable x → checkedRecord x = .ok (secondViewRecord x)) := by
  refine ⟨fun r => ⟨holds_of_found, Holds.found⟩, fun hnone => ?_, fun hx => ?_⟩
  · cases hread : secondViewRecord x with
    | ok r => exact absurd (holds_of_found hread) (hnone r)
    | error e => exact ⟨e, rfl, secondViewRecord_refusal hread⟩
  · obtain ⟨r, hr, rfl⟩ := checkedRecord_returns hx
    exact hr

/-- One byte and an atom around a record without parameter sets. -/
def smallestExtradata : Bytes := [1, 0, 0, 0, 14] ++ (atomTag ++ [1, 0x76, 0, 0x28, 0xff, 0xe0])

/-- The size of the atom is there, but no other record before it. -/
def atomOnly : Bytes := [1, 0, 0, 14] ++ (atomTag ++ [1, 0x76, 0, 0x28, 0xff, 0xe0])

theorem secondViewRecord_smallest :
    Holds smallestExtradata [1, 0x76, 0, 0x28, 0xff, 0xe0] ∧
      checkedRecord smallestExtradata = .ok (.ok [1, 0x76, 0, 0x28, 0xff, 0xe0]) ∧
      ∃ e, secondViewRecord atomOnly = .error e ∧
        (e = .notConfiguration ∨ e = .missingAtom ∨ e = .truncatedAtom) := by
  have hread : secondViewRecord smallestExtradata = .ok [1, 0x76, 0, 0x28, 0xff, 0xe0] := by
    decide +kernel
  have hrefused : secondViewRecord atomOnly = .error .missingAtom := by decide +kernel
  refine ⟨((secondViewRecord_spec smallestExtradata).1 _).mp hread, ?_, ?_⟩
  · rw [(secondViewRecord_spec smallestExtradata).2.2 (by decide), hread]
  · refine (secondViewRecord_spec atomOnly).2.1 fun r hr => ?_
    have hfound := ((secondViewRecord_spec atomOnly).1 r).mpr hr
    rw [hrefused] at hfound
    cases hfound

end Config

end Multiview
