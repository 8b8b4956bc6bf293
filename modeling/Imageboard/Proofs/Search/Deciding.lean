import Imageboard.Search.Condition

/-!
# What is known of a post

A condition is unknown only where a value that it compares is missing: a column without a value, a
bound that is not a number, a user whom a post does not have or whom nobody goes by the name of, a
parent that a post does not have. Of all other posts each predicate is true or false.
-/

namespace Imageboard

/-- Whether a value is nothing, or becomes nothing when it is bound. -/
def Value.IsMissing (v : Value) : Prop :=
  v.bound = .null

/-- What is not missing is bound as it is. -/
theorem Value.bound_of_not_isMissing {v : Value} (h : ¬ v.IsMissing) : v.bound = v := by
  unfold IsMissing at h
  unfold bound at h ⊢
  split
  next => exact absurd rfl h
  next => rfl

/-- Two values that are not missing can be compared. -/
theorem Value.isSome_compare? {v w : Value} (hv : ¬ v.IsMissing) (hw : ¬ w.IsMissing) :
    (v.compare? w).isSome = true := by
  rcases v with _ | m | (_ | s | ⟨s, k, e⟩) | a <;> rcases w with _ | n | (_ | t | ⟨t, l, f⟩) | b
  any_goals first
    | exact absurd rfl hv
    | exact absurd rfl hw
    | rfl

namespace Search

open Query

namespace Truth

variable {s t : Truth} {ts : List Truth}

/-- Whether both of two known things are true is known. -/
theorem isSome_and (hs : s.isSome = true) (ht : t.isSome = true) : (s.and t).isSome = true := by
  obtain ⟨a, rfl⟩ := Option.isSome_iff_exists.1 hs
  obtain ⟨b, rfl⟩ := Option.isSome_iff_exists.1 ht
  cases a <;> cases b <;> rfl

/-- Whether one of two known things is true is known. -/
theorem isSome_or (hs : s.isSome = true) (ht : t.isSome = true) : (s.or t).isSome = true := by
  obtain ⟨a, rfl⟩ := Option.isSome_iff_exists.1 hs
  obtain ⟨b, rfl⟩ := Option.isSome_iff_exists.1 ht
  cases a <;> cases b <;> rfl

/-- Whether all of some known things are true is known. -/
theorem isSome_all (h : ∀ t ∈ ts, t.isSome = true) : (all ts).isSome = true := by
  induction ts with
  | nil => rfl
  | cons t ts ih =>
    exact isSome_and (h t List.mem_cons_self) (ih fun u hu => h u (List.mem_cons_of_mem _ hu))

/-- Whether one of some known things is true is known. -/
theorem isSome_any (h : ∀ t ∈ ts, t.isSome = true) : (any ts).isSome = true := by
  induction ts with
  | nil => rfl
  | cons t ts ih =>
    exact isSome_or (h t List.mem_cons_self) (ih fun u hu => h u (List.mem_cons_of_mem _ hu))

end Truth

variable {c : Contents} {p : Post}

/-- Whether a post lacks a user that a relation compares with the one that a value names. -/
def LacksUser (c : Contents) (userId : Option Int) (value : Value) : Prop :=
  anyOrNone? value = none ∧ (userId = none ∨ (textOf? value).bind c.findUser? = none)

/-- Whether something that a predicate compares is missing. -/
def Lacks (c : Contents) (p : Post) : Predicate → Prop
  | .range column r category =>
    (columnValue c p category column).IsMissing ∨ ∃ v ∈ r.values, v.IsMissing
  | .pattern column _ => (columnValue c p none column).IsMissing
  | .relation .uploader value => LacksUser c p.uploaderId value
  | .relation .approver value => LacksUser c p.approverId value
  | .relation .parent value =>
    anyOrNone? value = none ∧ (value.IsMissing ∨ p.parentId = none ∧ value ≠ .integer p.id)
  | _ => False

/-- A comparison of values that are not missing is decided. -/
theorem isSome_comparesAs {orderings : List Ordering} {v w : Value} (hv : ¬ v.IsMissing)
    (hw : ¬ w.IsMissing) : (comparesAs orderings v w).isSome = true := by
  rw [comparesAs, Option.isSome_map]
  exact Value.isSome_compare? hv hw

/-- Whether a value is in a range is decided if neither it nor a bound is missing. -/
theorem isSome_inRange {v : Value} {r : Range} (hv : ¬ v.IsMissing)
    (hr : ∀ w ∈ r.values, ¬ w.IsMissing) : (inRange v r).isSome = true := by
  have hcompare (orderings : List Ordering) (w : Value) (hw : ¬ w.IsMissing) :
      (comparesAs orderings v w.bound).isSome = true := by
    rw [Value.bound_of_not_isMissing hw]
    exact isSome_comparesAs hv hw
  cases r with
  | between lower upper =>
    exact Truth.isSome_and (hcompare _ _ (hr _ (by simp [Range.values])))
      (hcompare _ _ (hr _ (by simp [Range.values])))
  | among vs =>
    change (isAmong v (vs.map Value.bound)).isSome = true
    unfold isAmong
    split
    · rfl
    · refine Truth.isSome_any fun t ht => ?_
      obtain ⟨w, hw, rfl⟩ := List.mem_map.1 ht
      obtain ⟨u, hu, rfl⟩ := List.mem_map.1 hw
      exact hcompare _ _ (hr u hu)
  | _ => exact hcompare _ _ (hr _ (by simp [Range.values]))

/-- An id is not missing. -/
theorem not_isMissing_integer (n : Int) : ¬ (Value.integer n).IsMissing :=
  nofun

/-- Whether a user of a post is the one that a value names is decided if neither is missing. -/
theorem isSome_userIs {userId : Option Int} {value : Value} (h : ¬ LacksUser c userId value) :
    (userIs c userId value).isSome = true := by
  unfold userIs
  split
  · rfl
  next hword =>
    simp only [LacksUser, hword, true_and, not_or, ← ne_eq, Option.ne_none_iff_exists'] at h
    obtain ⟨⟨id, rfl⟩, u, hu⟩ := h
    rw [userIdOf, hu]
    exact isSome_comparesAs (not_isMissing_integer _) (not_isMissing_integer _)

/-- Whether a post is one of a family is decided if its parent is not missing. -/
theorem isSome_related_parent {value : Value} (h : ¬ Lacks c p (.relation .parent value)) :
    (related c p value .parent).isSome = true := by
  simp only [Lacks, not_and, not_or, ne_eq, Decidable.not_not] at h
  rw [related]
  split
  · rfl
  next hword =>
    obtain ⟨hvalue, hparent⟩ := h hword
    have hid : (comparesAs [.eq] (.integer p.id) value).isSome = true :=
      isSome_comparesAs (not_isMissing_integer _) hvalue
    cases hnone : p.parentId with
    | none =>
      -- A post without a parent is still one of its own family.
      obtain rfl := hparent hnone
      have hself : comparesAs [.eq] (.integer p.id) (.integer p.id) = some true := by
        simp [comparesAs, Value.compare?]
      rw [hself]
      rfl
    | some parent => exact Truth.isSome_or (isSome_comparesAs (not_isMissing_integer _) hvalue) hid

/-- A relation holds or does not hold of a post that lacks nothing of what it compares. -/
theorem isSome_related {value : Value} {r : Relation} (h : ¬ Lacks c p (.relation r value)) :
    (related c p value r).isSome = true := by
  cases r with
  | uploader => exact isSome_userIs h
  | approver => exact isSome_userIs h
  | parent => exact isSome_related_parent h
  | pool =>
    rw [related]
    split <;> rfl
  | _ => rfl

/-- A predicate is true or false of a post that lacks nothing of what it compares. -/
theorem isSome_truthOf {predicate : Predicate} (h : ¬ Lacks c p predicate) :
    (truthOf c p predicate).isSome = true := by
  cases predicate with
  | range column r category =>
    simp only [Lacks, not_or, not_exists, not_and] at h
    exact isSome_inRange h.1 h.2
  | pattern column pattern =>
    rw [truthOf]
    unfold matchesPattern
    split
    next hnull => exact absurd (by rw [Lacks, hnull]; rfl) h
    next => rfl
  | flags columns value combine =>
    have hflags : ∀ t ∈ columns.map (flagIs p value), t.isSome = true := by
      intro t ht
      obtain ⟨flag, -, rfl⟩ := List.mem_map.1 ht
      rfl
    cases combine with
    | all => exact Truth.isSome_all hflags
    | any => exact Truth.isSome_any hflags
  | relation r value => exact isSome_related h
  | never reason => rfl

end Search

end Imageboard
