import Mathlib.Data.List.Nodup

/-!
# Looking up in lists

Records stand in lists and are found as the first of their kind. Where a key is that of one record only,
this record is found by it wherever it stands; and in a list that is in order, what is found comes before
all else that was looked for.
-/

namespace Imageboard

variable {α κ : Type} [DecidableEq κ] {key : α → κ} {k : κ} {p : α → Bool} {r : α → α → Prop}
  {xs ys : List α} {a b : α}

/-- What is the only thing looked for in a list is found. -/
theorem find?_eq_some_of_unique (ha : a ∈ xs) (hp : p a = true) (hunique : ∀ b ∈ xs, p b = true → b = a) :
    xs.find? p = some a := by
  obtain ⟨b, hb⟩ := Option.isSome_iff_exists.1 (List.find?_isSome.2 ⟨a, ha, hp⟩)
  rw [hb, hunique b (List.mem_of_find?_eq_some hb) (List.find?_some hb)]

/-- A record is found by its key if keys are distinct. -/
theorem find?_key_eq_some_iff (hkeys : (xs.map key).Nodup) :
    (xs.find? fun x => key x = k) = some a ↔ a ∈ xs ∧ key a = k := by
  constructor
  · intro hfound
    exact ⟨List.mem_of_find?_eq_some hfound, by simpa using List.find?_some hfound⟩
  · rintro ⟨ha, rfl⟩
    refine find?_eq_some_of_unique ha (by simp) fun b hb hkey => ?_
    exact List.inj_on_of_nodup_map hkeys hb ha (of_decide_eq_true hkey)

/-- Records with different keys are found wherever they stand. -/
theorem find?_eq_of_perm (hperm : xs.Perm ys) (hkeys : (xs.map key).Nodup) (k : κ) :
    ys.find? (fun x => key x = k) = xs.find? fun x => key x = k := by
  refine Option.ext fun a => ?_
  rw [find?_key_eq_some_iff hkeys, find?_key_eq_some_iff ((hperm.map key).nodup_iff.1 hkeys), hperm.mem_iff]

/-- What is found first in a list in order comes before all else that is looked for. -/
theorem rel_of_find?_eq_some (hfound : xs.find? p = some a) (hordered : xs.Pairwise r)
    (hrefl : ∀ a, r a a) (hb : b ∈ xs) (hp : p b = true) : r a b := by
  obtain ⟨-, before, after, rfl, hbefore⟩ := List.find?_eq_some_iff_append.1 hfound
  rcases List.mem_append.1 hb with hb | hb
  · have hnot := hbefore b hb
    rw [hp] at hnot
    cases hnot
  · rcases List.mem_cons.1 hb with rfl | hb
    · exact hrefl b
    · exact (List.pairwise_cons.1 (List.pairwise_append.1 hordered).2.1).1 b hb

end Imageboard
