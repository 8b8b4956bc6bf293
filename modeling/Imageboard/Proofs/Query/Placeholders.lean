import Imageboard.Proofs.Query.Ordering

/-!
# Parameters for question marks

A statement has a question mark for each name, pattern and value that is passed to it. Its pieces are
put together so that each has as many parameters as question marks, whatever it is made for. Where the
order of a plan takes its parameter from the terms of the query, these have put one there.
-/

namespace Imageboard.Query

/-! ## Question marks -/

/-- The number of question marks in a text. -/
def marks (s : String) : Nat :=
  s.toList.count '?'

/-- The marks of a text are those among its characters. -/
theorem marks_ofList (cs : List Char) : marks (String.ofList cs) = cs.count '?' := by
  simp [marks]

/-- Two texts one after the other have the marks of both. -/
theorem marks_append {s t : String} {m n : Nat} (hs : marks s = m) (ht : marks t = n) :
    marks (s ++ t) = m + n := by
  rw [← hs, ← ht]
  simp [marks]

/-- A separator without marks adds none. -/
theorem marks_intercalate {separator : String} (hseparator : marks separator = 0) (ss : List String) :
    marks (separator.intercalate ss) = (ss.flatMap String.toList).count '?' := by
  have hnone : '?' ∉ separator.toList := List.count_eq_zero.1 hseparator
  have hcount (ls : List (List Char)) :
      (separator.toList.intercalate ls).count '?' = ls.flatten.count '?' := by
    induction ls with
    | nil => simp
    | cons l rest ih =>
      cases rest with
      | nil => simp
      | cons m rest =>
        rw [List.intercalate_cons_cons, List.append_assoc, List.count_append, List.count_append, ih,
          List.count_eq_zero.2 hnone, Nat.zero_add, List.flatten_cons (l := l), List.count_append]
  rw [marks, String.toList_intercalate, hcount, List.flatMap_def]

/-- A text that is repeated has its marks as often. -/
theorem marks_intercalate_replicate {separator s : String} {m : Nat}
    (hseparator : marks separator = 0) (hs : marks s = m) (n : Nat) :
    marks (separator.intercalate (List.replicate n s)) = n * m := by
  rw [marks_intercalate hseparator, ← hs]
  induction n with
  | zero => simp
  | succ n ih =>
    rw [List.replicate_succ, List.flatMap_cons, List.count_append, ih, Nat.succ_mul, Nat.add_comm]
    rfl

namespace Fragment

/-- Whether a piece has as many parameters as question marks. -/
def Balanced (f : Fragment) : Prop :=
  marks f.text = f.params.length

/-- A negation has the marks and the parameters of what it negates. -/
theorem Balanced.negate {f : Fragment} (h : f.Balanced) : f.negate.Balanced := by
  have hmarks : marks f.negate.text = 0 + f.params.length + 0 :=
    marks_append (marks_append (marks_ofList _) h) (marks_ofList _)
  rw [Balanced, hmarks, Nat.zero_add, Nat.add_zero]
  rfl

/-- Pieces that are joined have their marks and their parameters together. -/
theorem balanced_combine {word : String} {neutral : Fragment} {fs : List Fragment}
    (hword : marks word = 0) (hneutral : neutral.Balanced) (hfs : ∀ f ∈ fs, f.Balanced) :
    (combine word neutral fs).Balanced := by
  have hseparator : marks (" " ++ word ++ " ") = 0 :=
    marks_append (marks_append (marks_ofList _) hword) (marks_ofList _)
  have hcount (gs : List Fragment) (hgs : ∀ f ∈ gs, f.Balanced) :
      ((gs.map fun f => "(" ++ f.text ++ ")").flatMap String.toList).count '?' =
        (gs.flatMap (·.params)).length := by
    induction gs with
    | nil => rfl
    | cons g rest ih =>
      obtain ⟨hg, hrest⟩ := List.forall_mem_cons.1 hgs
      have hpiece : marks ("(" ++ g.text ++ ")") = 0 + g.params.length + 0 :=
        marks_append (marks_append (marks_ofList _) hg) (marks_ofList _)
      rw [List.map_cons, List.flatMap_cons, List.count_append, ← marks, hpiece, ih hrest,
        List.flatMap_cons, List.length_append, Nat.zero_add, Nat.add_zero]
  unfold combine
  split
  · exact hneutral
  · exact hfs _ (List.mem_singleton.2 rfl)
  · rw [Balanced, marks_intercalate hseparator, hcount fs hfs]

/-- All of some balanced pieces are balanced. -/
theorem balanced_all {fs : List Fragment} (hfs : ∀ f ∈ fs, f.Balanced) : (all fs).Balanced :=
  balanced_combine (marks_ofList _) (marks_ofList _) hfs

/-- One of some balanced pieces is balanced. -/
theorem balanced_any {fs : List Fragment} (hfs : ∀ f ∈ fs, f.Balanced) : (any fs).Balanced :=
  balanced_combine (marks_ofList _) (marks_ofList _) hfs

end Fragment

/-! ## Pieces -/

/-- The count of tags by category has one mark, for the category. -/
theorem marks_categoryTagCountExpression : marks categoryTagCountExpression = 1 :=
  marks_append (marks_ofList _) (marks_ofList _)

/-- The expressions of the other columns have no marks. -/
theorem marks_of_expression? {column : Column} {expression : String}
    (h : column.expression? = some expression) : marks expression = 0 := by
  cases column with
  | categoryTagCount => cases h
  | _ =>
    obtain rfl := Option.some.inj h
    exact marks_ofList _

/-- A tag filter has one mark, for its name. -/
theorem TagFilter.balanced_fragment (f : TagFilter) : f.fragment.Balanced := by
  have hoperator : marks (if f.wildcard then "GLOB" else "=") = 0 := by
    cases f.wildcard <;> exact marks_ofList _
  exact marks_append (marks_append (marks_append (marks_ofList _) (marks_ofList _)) hoperator)
    (marks_ofList _)

/-- An expression with its parameters has a mark more for each value of a range. -/
theorem Range.balanced_fragment {expression : String} {params : List Value}
    (h : marks expression = params.length) (r : Range) : (r.fragment expression params).Balanced := by
  cases r with
  | among vs =>
    have hplaces : marks (placeholders vs.length) = vs.length * 1 :=
      marks_intercalate_replicate (marks_ofList _) (marks_ofList _) _
    have hmarks : marks (expression ++ " IN (" ++ placeholders vs.length ++ ")") =
        params.length + 0 + vs.length * 1 + 0 :=
      marks_append (marks_append (marks_append h (marks_ofList _)) hplaces) (marks_ofList _)
    rw [Fragment.Balanced, fragment, hmarks, List.length_append, Nat.mul_one, Nat.add_zero, Nat.add_zero]
  | _ =>
    rw [Fragment.Balanced, fragment, List.length_append]
    exact marks_append h (marks_ofList _)

/-- A pool with a further condition has the marks of the condition. -/
theorem marks_poolExists {extra : String} {n : Nat} (h : marks extra = n) :
    marks (poolExists extra) = n := by
  have hmarks : marks (poolExists extra) = 0 + 0 + n + 0 :=
    marks_append (marks_append (marks_append (marks_ofList _) (marks_ofList _)) h) (marks_ofList _)
  rw [hmarks, Nat.zero_add, Nat.add_zero]

/-- A user of a post has a mark for the name, if there is one. -/
theorem balanced_userFragment {column : String} (h : marks column = 0) (value : Value) :
    (userFragment column value).Balanced := by
  unfold userFragment
  split
  · exact marks_append h (marks_ofList _)
  · split
    · exact marks_append h (marks_ofList _)
    · exact marks_append (marks_append h (marks_ofList _)) (marks_ofList _)

/-- A vote has a mark for the name of the user. -/
theorem balanced_voteFragment {sign : String} (h : marks sign = 0) (value : Value) :
    (voteFragment sign value).Balanced := by
  have hmarks : marks (voteFragment sign value).text = 0 + 1 + 0 + 0 :=
    marks_append (marks_append (marks_append (marks_ofList _) (marks_ofList _)) h) (marks_ofList _)
  exact hmarks

/-- A relation has a mark for each name or id that it takes. -/
theorem Relation.balanced_fragment (value : Value) (r : Relation) :
    (r.fragment value).Balanced := by
  have hnot {text : String} (h : marks text = 0) : marks ("NOT " ++ text) = 0 :=
    marks_append (marks_ofList _) h
  unfold fragment
  cases r with
  | uploader => exact balanced_userFragment (marks_ofList _) value
  | approver => exact balanced_userFragment (marks_ofList _) value
  | fav => exact marks_append (marks_ofList _) (marks_ofList _)
  | upvote => exact balanced_voteFragment (marks_ofList _) value
  | downvote => exact balanced_voteFragment (marks_ofList _) value
  | poolCategory => exact marks_poolExists (marks_ofList _)
  | pool =>
    dsimp only
    split
    · exact marks_poolExists (marks_ofList _)
    · split
      · exact hnot (marks_poolExists (marks_ofList _))
      · exact marks_poolExists (marks_ofList _)
  | parent =>
    dsimp only
    repeat' split
    all_goals exact marks_ofList _
  | child =>
    dsimp only
    split
    · exact marks_ofList _
    · exact hnot (marks_ofList _)

/-- A flag has a mark for the value that it is compared with. -/
theorem Flag.balanced_fragment (value : Bool) (flag : Flag) : (flag.fragment value).Balanced := by
  have hname : marks flag.name = 0 := by
    cases flag <;> exact marks_ofList _
  exact marks_append (marks_append (marks_ofList _) hname) (marks_ofList _)

/-- The piece of a predicate is balanced. -/
theorem Predicate.balanced_of_fragment {p : Predicate} {f : Fragment} (h : p.fragment = .ok f) :
    f.Balanced := by
  have hflags {columns : List Flag} {value : Bool} :
      ∀ f ∈ columns.map (Flag.fragment value), f.Balanced := by
    intro f hf
    obtain ⟨flag, -, rfl⟩ := List.mem_map.1 hf
    exact flag.balanced_fragment value
  unfold fragment at h
  split at h
  next column r category =>
    split at h <;> obtain rfl := Except.ok.inj h
    next expression hexpression => exact r.balanced_fragment (marks_of_expression? hexpression)
    next => exact r.balanced_fragment marks_categoryTagCountExpression
  next column text =>
    split at h
    next expression hexpression =>
      obtain rfl := Except.ok.inj h
      exact marks_append (marks_append (marks_ofList _) (marks_of_expression? hexpression))
        (marks_ofList _)
    next => cases h
  next =>
    obtain rfl := Except.ok.inj h
    exact Fragment.balanced_all hflags
  next =>
    obtain rfl := Except.ok.inj h
    exact Fragment.balanced_any hflags
  next r value =>
    obtain rfl := Except.ok.inj h
    exact r.balanced_fragment value
  next =>
    obtain rfl := Except.ok.inj h
    exact marks_ofList _

/-- The piece of a condition is balanced. -/
theorem Condition.balanced_of_fragment {k : Condition} {f : Fragment} (h : k.fragment = .ok f) :
    f.Balanced := by
  obtain ⟨g, hg, rfl⟩ := exists_of_map_eq_ok h
  have hbalanced := Predicate.balanced_of_fragment hg
  split
  · exact hbalanced.negate
  · exact hbalanced

/-! ## Orders -/

/-- Whether an order has the parameter that it takes: the name of a user, or that of a pool. -/
def Order.Named (o : Order) : Prop :=
  o.key = .ordfav ∨ o.key = .ordpool → (o.params.take 1).length = 1

/-- The words of a direction have no marks. -/
theorem Direction.marks_word (d : Direction) : marks d.word = 0 := by
  cases d <;> exact marks_ofList _

/-- An expression that is ordered by has its marks alone. -/
theorem Direction.marks_by {expression : String} {n : Nat} (h : marks expression = n)
    (d : Direction) : marks (d.by expression) = n :=
  marks_append (marks_append (marks_append (marks_append h (marks_ofList _)) d.marks_word)
    (marks_ofList _)) d.marks_word

/-- A sequence is numbered in pairs. -/
theorem length_numbered (place : Nat) (vs : List Value) :
    (numbered place vs).length = vs.length * 2 := by
  induction vs generalizing place with
  | nil => rfl
  | cons v rest ih =>
    rw [numbered, List.length_cons, List.length_cons, ih, List.length_cons]
    omega

/-- The piece of an order that has its parameter is balanced. -/
theorem Order.balanced_of_fragment {o : Order} (hnamed : o.Named) {f : Fragment}
    (h : o.fragment = .ok f) : f.Balanced := by
  have hby {expression : String} (h : marks expression = 0) (d : Direction) :
      (Fragment.plain (d.by expression)).Balanced :=
    d.marks_by h
  unfold fragment at h
  cases hkey : o.key <;> simp only [hkey] at h
  case custom =>
    obtain rfl := Except.ok.inj h
    have hpairs : marks (" ".intercalate (List.replicate o.params.length "WHEN ? THEN ?")) =
        o.params.length * 2 :=
      marks_intercalate_replicate (marks_ofList _) (marks_ofList _) _
    have hmarks : marks ("CASE p.post_id " ++
        " ".intercalate (List.replicate o.params.length "WHEN ? THEN ?") ++ " END ASC") =
        0 + o.params.length * 2 + 0 :=
      marks_append (marks_append (marks_ofList _) hpairs) (marks_ofList _)
    rw [Fragment.Balanced, hmarks, length_numbered, Nat.zero_add, Nat.add_zero]
  case ordfav =>
    obtain rfl := Except.ok.inj h
    exact (marks_append (marks_ofList _) (marks_ofList _)).trans (hnamed (Or.inl hkey)).symm
  case categoryTags name =>
    split at h
    · obtain rfl := Except.ok.inj h
      exact o.direction.marks_by marks_categoryTagCountExpression
    · cases h
  case random | ordpool =>
    obtain rfl := Except.ok.inj h
    exact marks_ofList _
  case id =>
    obtain rfl := Except.ok.inj h
    exact marks_append (marks_ofList _) o.direction.marks_word
  all_goals
    obtain rfl := Except.ok.inj h
    exact hby (marks_ofList _) o.direction

/-- The order of a plan made of terms has its parameter. -/
theorem Draft.Extends.named_finish {config : Config} {resolve : String → String} {viewer : Viewer}
    {now : Moment} {ts : List Term} {d : Draft} (h : Extends config resolve viewer now .empty ts d)
    (query : String) : (d.finish viewer query).order.Named := by
  have hread (value : String) : ∀ o ∈ Order.ofText? config.categories value, o.Named := by
    intro o ho hkey
    obtain ⟨hfav, hpool⟩ := Order.key_of_ofText? ho
    exact absurd hkey (not_or.2 ⟨hfav, hpool⟩)
  have hset (t : Term) (effect : Effect) (heffect : t.effect config viewer now = .ok effect) :
      ∀ o ∈ effect.order, o.Named := by
    intro o ho _
    rcases Term.order_of_effect heffect ho with ⟨name, rfl⟩ | ⟨-, name, rfl⟩ <;> rfl
  rcases Draft.finalOrder_cases d.order (d.finish viewer query).conditions with
    ⟨ids, category, heq, -⟩ | heq | ⟨heq, -⟩
  · intro hkey
    rw [show (d.finish viewer query).order.key = .custom from congrArg Order.key heq] at hkey
    rcases hkey with hkey | hkey <;> cases hkey
  · intro hkey
    rw [show (d.finish viewer query).order.key = .id from congrArg Order.key heq] at hkey
    rcases hkey with hkey | hkey <;> cases hkey
  · have hnone : ∀ o ∈ Draft.empty.order, o.Named := fun o ho => nomatch ho
    exact forall_foldl_orderAfter hread hset hnone _ (h.order.symm.trans heq)

/-! ## Statements -/

namespace Plan

variable {p : Plan}

/-- What a plan requires of a row is balanced. -/
theorem balanced_of_whereFragment {f : Fragment} (h : p.whereFragment = .ok f) : f.Balanced := by
  unfold whereFragment at h
  split at h
  · cases h
  next conditions hconditions =>
    obtain rfl := Except.ok.inj h
    have hfilters (filters : List TagFilter) :
        ∀ f ∈ filters.map TagFilter.fragment, f.Balanced := by
      intro f hf
      obtain ⟨filter, -, rfl⟩ := List.mem_map.1 hf
      exact filter.balanced_fragment
    refine Fragment.balanced_all fun f hf => ?_
    simp only [List.mem_append] at hf
    rcases hf with ((hf | hf) | hf) | hf
    · exact hfilters _ f hf
    · split at hf
      · cases hf
      · obtain rfl := List.mem_singleton.1 hf
        exact Fragment.balanced_any (hfilters _)
    · obtain ⟨filter, -, rfl⟩ := List.mem_map.1 hf
      exact filter.balanced_fragment.negate
    · obtain ⟨k, -, hk⟩ := exists_of_mem_mapM hconditions hf
      exact Condition.balanced_of_fragment hk

/-- What a plan draws from is balanced if its order has its parameter. -/
theorem balanced_fromFragment (h : p.order.Named) : p.fromFragment.Balanced := by
  unfold fromFragment
  split
  next hkey => exact (marks_append (marks_ofList _) (marks_ofList _)).trans (h (Or.inr hkey)).symm
  next => exact marks_ofList _

/-- The statement that selects is balanced if the order has its parameter. -/
theorem balanced_of_selectStatement {limit : Option Int} {offset : Int} {f : Fragment}
    (hnamed : p.order.Named) (h : p.selectStatement limit offset = .ok f) : f.Balanced := by
  unfold selectStatement at h
  split at h
  · cases h
  · cases h
  next wanted order hwanted horder =>
    obtain rfl := Except.ok.inj h
    have hmarks : marks ("SELECT p.post_id FROM " ++ p.fromFragment.text ++ " WHERE " ++
        wanted.text ++ " ORDER BY " ++ order.text ++ " LIMIT ? OFFSET ?") =
        0 + p.fromFragment.params.length + 0 + wanted.params.length + 0 + order.params.length + 2 :=
      marks_append (marks_append (marks_append (marks_append (marks_append (marks_append
        (marks_ofList _) (balanced_fromFragment hnamed)) (marks_ofList _))
        (balanced_of_whereFragment hwanted)) (marks_ofList _))
        (Order.balanced_of_fragment hnamed horder)) (marks_ofList _)
    rw [Fragment.Balanced, hmarks]
    simp only [List.length_append, List.length_cons, List.length_nil]
    omega

/-- The statement that counts is balanced if the order has its parameter. -/
theorem balanced_of_countStatement {f : Fragment} (hnamed : p.order.Named)
    (h : p.countStatement = .ok f) : f.Balanced := by
  obtain ⟨wanted, hwanted, rfl⟩ := exists_of_map_eq_ok h
  have hmarks : marks ("SELECT COUNT(*) FROM " ++ p.fromFragment.text ++ " WHERE " ++ wanted.text) =
      0 + p.fromFragment.params.length + 0 + wanted.params.length :=
    marks_append (marks_append (marks_append (marks_ofList _) (balanced_fromFragment hnamed))
      (marks_ofList _)) (balanced_of_whereFragment hwanted)
  rw [Fragment.Balanced, hmarks, List.length_append, Nat.zero_add, Nat.add_zero]

end Plan

end Imageboard.Query
