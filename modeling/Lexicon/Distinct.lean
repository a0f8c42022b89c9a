/-!
# Repetitions in a list

`firstClash?` finds the first element whose key an earlier element has, and
gives both.  There is none exactly when the keys are distinct; otherwise the
keys are distinct up to the element that is found.
-/

namespace Lexicon

variable {α β : Type} [DecidableEq β]

/-- Look for a clash with elements seen before, the latest of which comes first. -/
def clashAfter? (key : α → β) (seen : List α) : List α → Option (α × α)
  | [] => none
  | current :: rest =>
      match seen.find? fun earlier => key earlier == key current with
      | some earlier => some (earlier, current)
      | none => clashAfter? key (current :: seen) rest

/--
The first element whose key occurred before, after the earlier element with
that key.
-/
def firstClash? (key : α → β) (list : List α) : Option (α × α) :=
  clashAfter? key [] list

theorem clashAfter?_eq_none_iff (key : α → β) (seen list : List α) :
    clashAfter? key seen list = none ↔
      (list.map key).Nodup ∧ ∀ element ∈ list, key element ∉ seen.map key := by
  induction list generalizing seen with
  | nil => simp [clashAfter?]
  | cons current rest ih =>
      simp only [clashAfter?]
      cases found : seen.find? fun earlier => key earlier == key current with
      | some earlier =>
          have member := List.mem_of_find?_eq_some found
          have equal := List.find?_some found
          simp only [beq_iff_eq] at equal
          simp only [reduceCtorEq, List.map_cons, List.nodup_cons, List.mem_cons, forall_eq_or_imp,
            false_iff, not_and]
          intro _ fresh
          exact absurd (equal ▸ List.mem_map_of_mem member) fresh
      | none =>
          have fresh : key current ∉ seen.map key := by
            simp only [List.find?_eq_none, beq_iff_eq] at found
            simpa [List.mem_map] using found
          simp only [ih, List.map_cons, List.nodup_cons, List.mem_cons, forall_eq_or_imp, not_or]
          constructor
          · rintro ⟨distinct, unseen⟩
            refine ⟨⟨?_, distinct⟩, fresh, fun element member => (unseen element member).2⟩
            intro repeated
            obtain ⟨element, member, equal⟩ := List.mem_map.mp repeated
            exact (unseen element member).1 equal
          · rintro ⟨⟨unrepeated, distinct⟩, _, unseen⟩
            refine ⟨distinct, fun element member => ⟨?_, unseen element member⟩⟩
            intro equal
            exact unrepeated (equal ▸ List.mem_map_of_mem member)

theorem firstClash?_eq_none_iff (key : α → β) (list : List α) :
    firstClash? key list = none ↔ (list.map key).Nodup := by
  simp [firstClash?, clashAfter?_eq_none_iff]

/-- With distinct keys, the element with a key is the one that a search for it finds. -/
theorem find?_key_eq_some_iff {key : α → β} {list : List α} (distinct : (list.map key).Nodup)
    {wanted : β} {element : α} :
    (list.find? fun candidate => key candidate == wanted) = some element ↔
      element ∈ list ∧ key element = wanted := by
  constructor
  · intro found
    exact ⟨List.mem_of_find?_eq_some found, by simpa using List.find?_some found⟩
  · rintro ⟨member, rfl⟩
    induction list with
    | nil => cases member
    | cons head rest ih =>
        rcases List.nodup_cons.mp distinct with ⟨unrepeated, restDistinct⟩
        rcases List.mem_cons.mp member with rfl | later
        · simp
        · have differs : key head ≠ key element := by
            intro equal
            exact unrepeated (equal ▸ List.mem_map_of_mem later)
          simp [differs, ih restDistinct later]

/-- A clash is found at the first element whose key is among those before it. -/
theorem clashAfter?_eq_some_iff {key : α → β} {seen list : List α} {earlier current : α}
    (distinct : (seen.map key).Nodup) :
    clashAfter? key seen list = some (earlier, current) ↔
      ∃ before after, list = before ++ current :: after ∧
        ((before.reverse ++ seen).map key).Nodup ∧
        earlier ∈ before.reverse ++ seen ∧ key earlier = key current := by
  induction list generalizing seen with
  | nil => simp [clashAfter?]
  | cons head rest ih =>
      simp only [clashAfter?]
      cases found : seen.find? fun earlier => key earlier == key head with
      | some first =>
          constructor
          · intro clash
            cases clash
            exact ⟨[], rest, rfl, distinct, (find?_key_eq_some_iff distinct).mp found⟩
          · rintro ⟨before, after, split, beforeDistinct, place⟩
            cases before with
            | nil =>
                cases split
                rw [(find?_key_eq_some_iff distinct).mpr place] at found
                rw [Option.some.inj found]
            | cons other before =>
                cases split
                rcases (find?_key_eq_some_iff distinct).mp found with ⟨firstSeen, equal⟩
                have repeated : key head ∈ seen.map key := equal ▸ List.mem_map_of_mem firstSeen
                rw [List.reverse_cons, List.append_assoc, List.map_append] at beforeDistinct
                have later := (List.nodup_append.mp beforeDistinct).2.1
                exact absurd repeated (List.nodup_cons.mp later).1
      | none =>
          have fresh : key head ∉ seen.map key := by
            simp only [List.find?_eq_none, beq_iff_eq] at found
            simpa [List.mem_map] using found
          have headDistinct : ((head :: seen).map key).Nodup :=
            List.nodup_cons.mpr ⟨fresh, distinct⟩
          rw [ih headDistinct]
          constructor
          · rintro ⟨before, after, rfl, place⟩
            exact ⟨head :: before, after, rfl, by simpa using place⟩
          · rintro ⟨before, after, split, place⟩
            cases before with
            | nil =>
                cases split
                exact absurd (place.2.2 ▸ List.mem_map_of_mem place.2.1) fresh
            | cons other before =>
                cases split
                exact ⟨before, after, rfl, by simpa using place⟩

/--
The first clash splits the list where a key occurs again for the first time.
The earlier element is the only one before with that key.
-/
theorem firstClash?_eq_some_iff {key : α → β} {list : List α} {earlier current : α} :
    firstClash? key list = some (earlier, current) ↔
      ∃ before after, list = before ++ current :: after ∧ (before.map key).Nodup ∧
        earlier ∈ before ∧ key earlier = key current := by
  have nothing : (([] : List α).map key).Nodup := List.nodup_nil
  rw [firstClash?, clashAfter?_eq_some_iff nothing]
  simp [(List.reverse_perm _).nodup_iff]

end Lexicon
