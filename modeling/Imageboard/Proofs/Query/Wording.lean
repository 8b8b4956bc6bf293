import Imageboard.Proofs.Query.Placeholders

/-!
# The wording of statements

The text of a statement is chosen by the form of its plan. The form leaves out what a user can write
freely: the names of tags, users and pools, patterns, compared values, ids, the values of flags, reasons,
and the parameters of an order. It keeps how many of these there are, which filters are patterns, the
columns, comparisons, relations and negations, whether a relation asks for any or for none, and the key
and direction of the order. Two plans of one form have statements with one text, and what sets them apart
is among the parameters.
-/

namespace Imageboard.Query

/-! ## Forms -/

/-- The form of a tag filter. -/
def TagFilter.form (f : TagFilter) : TagFilter :=
  ⟨"", f.wildcard⟩

/-- The form of a range. -/
def Range.form : Range → Range
  | .eq _ => .eq .null
  | .lt _ => .lt .null
  | .lte _ => .lte .null
  | .gt _ => .gt .null
  | .gte _ => .gte .null
  | .between _ _ => .between .null .null
  | .among vs => .among (vs.map fun _ => .null)

/-- Whether a relation takes the words `any` and `none` for more than names. -/
def Relation.takesWords : Relation → Bool
  | .uploader | .approver | .pool | .parent | .child => true
  | .fav | .poolCategory | .upvote | .downvote => false

/-- What is kept of the value of a relation: that it asks for any, or for none. -/
def Relation.choice (r : Relation) (value : Value) : Value :=
  if r.takesWords ∧ (value = .text "any" ∨ value = .text "none") then value else .null

/-- The form of a predicate. -/
def Predicate.form : Predicate → Predicate
  | .range column r _ => .range column r.form none
  | .pattern column _ => .pattern column ""
  | .flags columns _ combine => .flags columns true combine
  | .relation r value => .relation r (r.choice value)
  | .never _ => .never ""

/-- The form of a condition. -/
def Condition.form (k : Condition) : Condition :=
  ⟨k.predicate.form, k.negated⟩

/-- The form of an order. -/
def Order.form (o : Order) : Order :=
  ⟨o.key, o.direction, o.params.map fun _ => .null⟩

/-- The form of a plan. -/
def Plan.form (p : Plan) : Plan where
  required := p.required.map TagFilter.form
  negated := p.negated.map TagFilter.form
  optional := p.optional.map TagFilter.form
  conditions := p.conditions.map Condition.form
  order := p.order.form
  limit := none
  query := ""

/-! ## Texts -/

/-- The text of a piece, if it can be written. -/
def wording (r : Except Failure Fragment) : Except Failure String :=
  r.map (·.text)

/-- The text of joined pieces depends on their texts alone. -/
theorem Fragment.text_combine_congr {word : String} {neutral : Fragment} {fs gs : List Fragment}
    (h : fs.map (·.text) = gs.map (·.text)) :
    (combine word neutral fs).text = (combine word neutral gs).text := by
  have hmany (fs : List Fragment) : fs.map (fun f => "(" ++ f.text ++ ")") =
      (fs.map (·.text)).map fun text => "(" ++ text ++ ")" := by
    rw [List.map_map]
    rfl
  rcases fs with _ | ⟨f, _ | ⟨f', fs⟩⟩
  · rw [List.map_eq_nil_iff.1 h.symm]
  · obtain ⟨g, rfl, hg⟩ := List.map_eq_singleton_iff.1 h.symm
    exact hg.symm
  · obtain ⟨g, gs', rfl, -, hrest⟩ := List.map_eq_cons_iff.1 h.symm
    obtain ⟨g', gs, rfl, -, -⟩ := List.map_eq_cons_iff.1 hrest
    simp only [combine, hmany, h]

/-- The text of a range is that of its form, whatever the parameters of the expression. -/
theorem Range.text_form (expression : String) (params others : List Value) (r : Range) :
    (r.form.fragment expression params).text = (r.fragment expression others).text := by
  cases r with
  | among vs => rw [form, fragment, fragment, List.length_map]
  | _ => rfl

/-- The text of a relation is that of its form. -/
theorem Relation.text_choice (value : Value) (r : Relation) :
    (r.fragment (r.choice value)).text = (r.fragment value).text := by
  unfold choice
  split
  next => rfl
  next hnot =>
    -- A relation that takes no words has one text; for another one the value is neither word.
    rw [not_and_or, not_or] at hnot
    unfold fragment
    cases r with
    | fav | poolCategory | upvote | downvote => dsimp only [voteFragment]
    | uploader | approver | pool | parent | child =>
      obtain ⟨hany, hnone⟩ := hnot.resolve_left (by simp [takesWords])
      simp only [userFragment, hany, hnone, reduceCtorEq, if_false]

/-- The text of a predicate is that of its form. -/
theorem Predicate.wording_form (p : Predicate) : wording p.form.fragment = wording p.fragment := by
  cases p with
  | range column r category =>
    unfold form fragment
    dsimp only
    split
    · exact congrArg Except.ok (r.text_form _ _ _)
    · exact congrArg Except.ok (r.text_form _ _ _)
  | pattern column text =>
    unfold form fragment
    dsimp only
    split <;> rfl
  | flags columns value combine =>
    have htexts : (columns.map (Flag.fragment true)).map (·.text) =
        (columns.map (Flag.fragment value)).map (·.text) := by
      rw [List.map_map, List.map_map]
      rfl
    cases combine <;> exact congrArg Except.ok (Fragment.text_combine_congr htexts)
  | relation r value => exact congrArg Except.ok (r.text_choice value)
  | never reason => rfl

/-- The text of a condition is that of its form. -/
theorem Condition.wording_form (k : Condition) : wording k.form.fragment = wording k.fragment := by
  have hpiece (negated : Bool) (r : Except Failure Fragment) :
      wording (r.map fun f => if negated then f.negate else f) =
        (wording r).map fun text => if negated then "NOT (" ++ text ++ ")" else text := by
    cases r <;> cases negated <;> rfl
  unfold fragment
  rw [hpiece, hpiece, form, Predicate.wording_form]

/-- The text of an order is that of its form. -/
theorem Order.wording_form (o : Order) : wording o.form.fragment = wording o.fragment := by
  obtain ⟨key, direction, params⟩ := o
  cases key with
  | categoryTags name => cases params <;> rfl
  | custom =>
    unfold form fragment
    simp only [List.length_map]
    rfl
  | _ => rfl

/-! ## Statements -/

/-- The texts of some conditions are those of their forms. -/
theorem wordings_form (ks : List Condition) :
    ((ks.map Condition.form).mapM Condition.fragment).map (List.map (·.text)) =
      (ks.mapM Condition.fragment).map (List.map (·.text)) := by
  induction ks with
  | nil => rfl
  | cons k rest ih =>
    have hk := k.wording_form
    rw [List.map_cons, List.mapM_cons, List.mapM_cons]
    cases hform : k.form.fragment <;> cases hfragment : k.fragment <;>
      simp only [hform, hfragment, wording, Except.map] at hk
    case error.error e e' =>
      obtain rfl := Except.error.inj hk
      rfl
    case ok.ok f g =>
      cases hforms : (rest.map Condition.form).mapM Condition.fragment <;>
        cases hrest : rest.mapM Condition.fragment <;> simp_all [bind, Except.bind, Except.map, pure, Except.pure]
    all_goals cases hk

namespace Plan

/-- The text of what a plan requires of a row is that of its form. -/
theorem wording_whereFragment_form (p : Plan) :
    wording p.form.whereFragment = wording p.whereFragment := by
  have hfilters (filters : List TagFilter) :
      ((filters.map TagFilter.form).map TagFilter.fragment).map (·.text) =
        (filters.map TagFilter.fragment).map (·.text) := by
    simp only [List.map_map]
    rfl
  have hoptional :
      (if p.form.optional.isEmpty then []
        else [Fragment.any (p.form.optional.map TagFilter.fragment)]).map (·.text) =
      (if p.optional.isEmpty then []
        else [Fragment.any (p.optional.map TagFilter.fragment)]).map (·.text) := by
    rw [form, List.isEmpty_map]
    split
    · rfl
    · exact congrArg (fun text => [text]) (Fragment.text_combine_congr (hfilters _))
  have hnegated :
      (p.form.negated.map fun f => f.fragment.negate).map (·.text) =
        (p.negated.map fun f => f.fragment.negate).map (·.text) := by
    simp only [form, List.map_map]
    rfl
  have hconditions := wordings_form p.conditions
  unfold whereFragment
  rw [show p.form.conditions = p.conditions.map Condition.form from rfl]
  cases hforms : (p.conditions.map Condition.form).mapM Condition.fragment <;>
    cases hks : p.conditions.mapM Condition.fragment <;>
    simp only [hforms, hks, Except.map] at hconditions
  case error.error e e' =>
    obtain rfl := Except.error.inj hconditions
    rfl
  case ok.ok fs gs =>
    refine congrArg Except.ok (Fragment.text_combine_congr ?_)
    rw [List.map_append, List.map_append, List.map_append, hoptional, hnegated,
      Except.ok.inj hconditions, List.map_append, List.map_append, List.map_append]
    congr 3
    exact hfilters p.required
  all_goals cases hconditions

/-- The text of what a plan draws from is that of its form. -/
theorem text_fromFragment_form (p : Plan) : p.form.fromFragment.text = p.fromFragment.text := by
  unfold fromFragment
  rw [show p.form.order.key = p.order.key from rfl]
  split <;> rfl

/-- The text of the statement that selects is that of the statement of the form, whatever the page. -/
theorem wording_selectStatement_form (p : Plan) (limit otherLimit : Option Int)
    (offset otherOffset : Int) :
    wording (p.form.selectStatement limit offset) =
      wording (p.selectStatement otherLimit otherOffset) := by
  have hpieces (p : Plan) (limit : Option Int) (offset : Int) :
      wording (p.selectStatement limit offset) =
        match wording p.whereFragment, wording p.order.fragment with
        | .error e, _ => .error e
        | _, .error e => .error e
        | .ok wanted, .ok order =>
          .ok ("SELECT p.post_id FROM " ++ p.fromFragment.text ++ " WHERE " ++ wanted ++
            " ORDER BY " ++ order ++ " LIMIT ? OFFSET ?") := by
    unfold selectStatement
    cases p.whereFragment <;> cases p.order.fragment <;> rfl
  rw [hpieces, hpieces, wording_whereFragment_form, show p.form.order = p.order.form from rfl,
    Order.wording_form, text_fromFragment_form]

/-- The text of the statement that counts is that of the statement of the form. -/
theorem wording_countStatement_form (p : Plan) :
    wording p.form.countStatement = wording p.countStatement := by
  have hpiece (source : Fragment) (r : Except Failure Fragment) :
      wording (r.map fun wanted => ⟨"SELECT COUNT(*) FROM " ++ source.text ++ " WHERE " ++ wanted.text,
        source.params ++ wanted.params⟩) =
      (wording r).map fun text => "SELECT COUNT(*) FROM " ++ source.text ++ " WHERE " ++ text := by
    cases r <;> rfl
  unfold countStatement
  rw [hpiece, hpiece, wording_whereFragment_form, text_fromFragment_form]

end Plan

/-! ## Compiled plans -/

/-- Whatever a query, a configuration and a viewer, a plan that the query is compiled into can be
written, for every page, as a statement that selects and as one that counts. Both have as many parameters
as question marks, and a plan of the same form has, for every page, statements with the same texts. -/
theorem exists_statements_of_compile {config : Config} {resolve : String → String} {viewer : Viewer}
    {clock : Moment} {query : String} {p : Plan}
    (h : compile config resolve viewer clock query = .ok p) (limit : Option Int) (offset : Int) :
    ∃ select count, p.selectStatement limit offset = .ok select ∧ p.countStatement = .ok count ∧
      select.Balanced ∧ count.Balanced ∧
      ∀ q : Plan, q.form = p.form → ∀ otherLimit otherOffset,
        wording (q.selectStatement otherLimit otherOffset) = .ok select.text ∧
          wording q.countStatement = .ok count.text := by
  obtain ⟨ts, d, -, hdraft, rfl⟩ := extends_of_compile h
  have hextends := extends_of_draftOf hdraft
  have hstatable := hextends.statable_finish query
  have hnamed := hextends.named_finish query
  obtain ⟨select, hselect⟩ := hstatable.exists_selectStatement limit offset
  obtain ⟨count, hcount⟩ := hstatable.exists_countStatement
  refine ⟨select, count, hselect, hcount, Plan.balanced_of_selectStatement hnamed hselect,
    Plan.balanced_of_countStatement hnamed hcount, fun q hform otherLimit otherOffset => ⟨?_, ?_⟩⟩
  · calc wording (q.selectStatement otherLimit otherOffset)
      _ = wording (q.form.selectStatement limit offset) :=
        (q.wording_selectStatement_form limit otherLimit offset otherOffset).symm
      _ = wording ((d.finish viewer query).selectStatement limit offset) := by
        rw [hform, Plan.wording_selectStatement_form]
      _ = .ok select.text := congrArg wording hselect
  · calc wording q.countStatement
      _ = wording q.form.countStatement := q.wording_countStatement_form.symm
      _ = wording (d.finish viewer query).countStatement := by
        rw [hform, Plan.wording_countStatement_form]
      _ = .ok count.text := congrArg wording hcount

/-- The statements for one user's favorites are worded as those for another's. -/
theorem exists_statements_of_compile_favorites :
    let plan (tag user query : String) : Plan :=
      ⟨[⟨tag, true⟩], [], [], [⟨.relation .uploader (.text user), true⟩,
        ⟨.relation .fav (.text user), false⟩], ⟨.ordfav, .desc, [.text user]⟩, none, query⟩
    compile .standard id .anonymous ⟨0, 0⟩ "cat* -user:bob ordfav:bob" =
        .ok (plan "cat*" "bob" "cat* -user:bob ordfav:bob") ∧
      ∃ select, (plan "cat*" "bob" "cat* -user:bob ordfav:bob").selectStatement (some 5) 0 =
          .ok select ∧ select.Balanced ∧
        wording ((plan "*'); --" "?" "").selectStatement none 10) = .ok select.text := by
  intro plan
  have hcompile : compile .standard id .anonymous ⟨0, 0⟩ "cat* -user:bob ordfav:bob" =
      .ok (plan "cat*" "bob" "cat* -user:bob ordfav:bob") := by
    decide +kernel
  obtain ⟨select, count, hselect, -, hbalanced, -, htexts⟩ :=
    exists_statements_of_compile hcompile (some 5) 0
  exact ⟨hcompile, select, hselect, hbalanced, (htexts (plan "*'); --" "?" "") rfl none 10).1⟩

end Imageboard.Query
