import Imageboard.Proofs.Query.Classifying
import Imageboard.Proofs.Query.Ordering

/-!
# Excluding what is asked for

A token with the mark of exclusion in front is read as the same term, excluded. A query of that one
term is compiled into the plan of the term alone with its filter, or its predicate, turned around. What
else there is in the plan is the same, but for an order that the term brings in.
-/

namespace Imageboard.Query

open Text

/-! ## Terms -/

/-- The term that a token is read as with the mark of exclusion in front. -/
def Term.excluded (t : Term) : Term :=
  { t with polarity := .negated, raw := "-" ++ t.raw }

/-- The mark of exclusion is split off in front of any text. -/
theorem splitPolarity_excluded {cs : List Char} (hnil : cs ≠ []) :
    splitPolarity ('-' :: cs) = (.negated, cs) := by
  obtain ⟨c, rest, rfl⟩ := List.exists_cons_of_ne_nil hnil
  rfl

/-- Taken as a tag, text is the same term with the mark of exclusion, excluded. -/
theorem tagTerm_excluded (body : List Char) (raw : String) :
    tagTerm .negated body ("-" ++ raw) = (tagTerm .required body raw).excluded := by
  unfold tagTerm Term.excluded
  rfl

/-- A token without a mark of its own is required, and with the mark of exclusion it is the same term,
excluded, unless it is an order. -/
theorem classifyToken_excluded {metatags : List String} {token : String} (hnil : token.toList ≠ [])
    (hmark : splitPolarity token.toList = (.required, token.toList))
    (horder : (classifyToken metatags token).kind ≠ .order) :
    (classifyToken metatags token).polarity = .required ∧
      classifyToken metatags ("-" ++ token) = (classifyToken metatags token).excluded := by
  have hmark' : splitPolarity ("-" ++ token).toList = (.negated, token.toList) := by
    rw [String.toList_append]
    exact splitPolarity_excluded hnil
  unfold classifyToken at horder ⊢
  rw [hmark] at horder
  rw [hmark, hmark']
  dsimp only at horder ⊢
  cases hsplit : splitKey? token.toList with
  | none => exact ⟨rfl, tagTerm_excluded _ _⟩
  | some pair =>
    obtain ⟨key, value⟩ := pair
    rw [hsplit] at horder
    dsimp only at horder ⊢
    split
    next hname => exact absurd (by rw [if_pos hname]) horder
    next =>
      split
      · exact ⟨rfl, rfl⟩
      · exact ⟨rfl, tagTerm_excluded _ _⟩

section Plans

variable {config : Config} {resolve : String → String} {viewer : Viewer} {now : Moment}

/-- A metatag term that does not order by a pool contributes a limit or nothing, or a predicate alone,
or the favorites of a user with their order. -/
theorem Term.cases_of_effect {t : Term} {effect : Effect}
    (h : t.effect config viewer now = .ok effect) (hpool : lowerString t.name ≠ "ordpool") :
    (∃ n, effect = ⟨none, none, n⟩) ∨ (∃ p, effect = .select p) ∨
      ∃ name, effect =
        .selectAndOrder (.relation .fav (.text name)) ⟨.ordfav, .desc, [.text name]⟩ := by
  unfold Term.effect Registry.evaluate at h
  split at h
  next handler hfound =>
    rcases Handler.cases_of_apply h with hlimit | hselect | ⟨-, horder⟩ | ⟨rfl, -⟩
    · exact Or.inl hlimit
    · exact Or.inr (Or.inl hselect)
    · exact Or.inr (Or.inr horder)
    · exact absurd (Registry.name_of_find?_ordpool hfound) hpool
  next => cases h

/-- Two plans of which the one asks for what the other excludes, with what the one has of conditions
beside those of the viewer. -/
inductive Plan.Opposed (ks : List Condition) (query text : String) :
    List Condition → Plan → Plan → Prop
  | filter (f : TagFilter) : Opposed ks query text []
      ⟨[f], [], [], ks, .standard, none, query⟩ ⟨[], [f], [], ks, .standard, none, text⟩
  | predicate (p : Predicate) : Opposed ks query text [⟨p, false⟩]
      ⟨[], [], [], ⟨p, false⟩ :: ks, .standard, none, query⟩
      ⟨[], [], [], ⟨p, true⟩ :: ks, .standard, none, text⟩
  | favorites (name : String) : Opposed ks query text [⟨.relation .fav (.text name), false⟩]
      ⟨[], [], [], ⟨.relation .fav (.text name), false⟩ :: ks, ⟨.ordfav, .desc, [.text name]⟩, none,
        query⟩
      ⟨[], [], [], ⟨.relation .fav (.text name), true⟩ :: ks, .standard, none, text⟩

/-- If a required term is drafted, so is the same term excluded, and the plans are opposed. -/
theorem exists_opposed_of_addTerm {t : Term} {d : Draft} (query text : String)
    (hpolarity : t.polarity = .required)
    (hasks : t.isTag = true ∨ t.conditions config viewer now ≠ []) (hpool : ¬ t.IsOrdpool)
    (h : Draft.addTerm config resolve viewer now .empty t = .ok d) :
    ∃ e, Draft.addTerm config resolve viewer now .empty t.excluded = .ok e ∧
      Plan.Opposed (Draft.viewerConditions viewer t.showsDeleted) query text
        (t.conditions config viewer now) (d.finish viewer query) (e.finish viewer text) := by
  obtain ⟨kind, polarity, name, value, raw⟩ := t
  obtain rfl : polarity = .required := hpolarity
  cases kind with
  | order =>
    rcases hasks with htag | hconditions
    · cases htag
    · exact absurd rfl hconditions
  | tag =>
    have hadd : Draft.addTerm config resolve viewer now .empty ⟨.tag, .required, name, value, raw⟩ =
        .ok (Draft.empty.addFilter .required ⟨resolve name, false⟩) := rfl
    obtain rfl := Except.ok.inj (hadd.symm.trans h)
    exact ⟨Draft.empty.addFilter .negated ⟨resolve name, false⟩, rfl, .filter _⟩
  | wildcard =>
    have hadd : Draft.addTerm config resolve viewer now .empty
        ⟨.wildcard, .required, name, value, raw⟩ =
        .ok (Draft.empty.addFilter .required ⟨name, true⟩) := rfl
    obtain rfl := Except.ok.inj (hadd.symm.trans h)
    exact ⟨Draft.empty.addFilter .negated ⟨name, true⟩, rfl, .filter _⟩
  | metatag =>
    have hname : lowerString name ≠ "ordpool" := fun hname => hpool ⟨rfl, hname⟩
    have hconditions := hasks.resolve_left (by simp [Term.isTag])
    unfold Draft.addTerm at h
    dsimp only at h
    split at h
    · cases h
    next effect heffect =>
      have heffect' : Term.effect config viewer now ⟨.metatag, .required, name, value, raw⟩ =
          .ok effect := heffect
      obtain rfl := Except.ok.inj h
      rw [Term.conditions, if_pos rfl, heffect'] at hconditions ⊢
      refine ⟨_, by unfold Draft.addTerm Term.excluded; dsimp only; rw [heffect], ?_⟩
      rcases Term.cases_of_effect heffect' hname with ⟨n, rfl⟩ | ⟨p, rfl⟩ | ⟨user, rfl⟩
      · exact absurd rfl hconditions
      · exact .predicate p
      · exact .favorites user

end Plans

end Imageboard.Query
