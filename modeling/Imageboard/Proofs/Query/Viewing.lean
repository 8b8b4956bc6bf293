import Imageboard.Proofs.Query.Drafting

/-!
# Who asks

Of the viewer, what the terms of a query contribute depends on two things only, the name and whether
the votes of others may be seen, and only a few metatags depend on these: votes, and users that are
named `self`. For two viewers who do not differ in what the terms of a query look at, these contribute
the same. The filters of a viewer take part when the plan is finished, and not before.
-/

namespace Imageboard.Query

open Text

variable {viewer other : Viewer} {now : Moment} {value : String}

/-- Whether two viewers go by one name and may see the same votes. -/
def SameIdentity (viewer other : Viewer) : Prop :=
  viewer.userName = other.userName ∧ viewer.isModerator = other.isModerator

/-- Whether what a metatag contributes can depend on who asks. -/
def Handler.isPersonal (value : String) : Handler → Bool
  | .user _ _ | .ordfav => lowerString value = "self"
  | .vote _ => true
  | _ => false

/-- A name that is not that of the viewer names the same user for all. -/
theorem userNamed?_congr (value : String)
    (h : SameIdentity viewer other ∨ lowerString value ≠ "self") :
    userNamed? viewer value = userNamed? other value := by
  unfold userNamed?
  rcases h with h | h
  · rw [h.1]
  · rw [if_neg h, if_neg h]

/-- A metatag contributes the same for two viewers if it does not depend on where they differ. -/
theorem Handler.apply_congr {handler : Handler}
    (h : SameIdentity viewer other ∨ handler.isPersonal value = false) :
    handler.apply viewer now value = handler.apply other now value := by
  cases handler with
  | user relation anyOrNone =>
    have hname := userNamed?_congr value (h.imp_right fun h => by simpa [isPersonal] using h)
    simp only [apply, hname]
  | ordfav =>
    have hname := userNamed?_congr value (h.imp_right fun h => by simpa [isPersonal] using h)
    simp only [apply, hname]
  | vote relation =>
    have hsame : SameIdentity viewer other := h.resolve_right (by simp [isPersonal])
    have hself (name : String) : viewer.isSelf name = other.isSelf name := by
      rw [Viewer.isSelf, Viewer.isSelf, hsame.1]
    simp only [apply, userNamed?_congr value (Or.inl hsame), hself, hsame.2]
  | _ => rfl

/-- Whether what a term contributes can depend on who asks. -/
def Term.isPersonal (config : Config) (t : Term) : Bool :=
  t.kind = .metatag && ((Registry.ofCategories config.categories).find? (lowerString t.name)).any
    (·.isPersonal (t.value.getD ""))

variable {config : Config} {resolve : String → String}

/-- A metatag term contributes the same for two viewers if it does not depend on where they
differ. -/
theorem Term.effect_congr {t : Term} (hkind : t.kind = .metatag)
    (h : SameIdentity viewer other ∨ t.isPersonal config = false) :
    t.effect config viewer now = t.effect config other now := by
  unfold effect Registry.evaluate
  cases hfound : (Registry.ofCategories config.categories).find? (lowerString t.name) with
  | none => rfl
  | some handler =>
    refine Handler.apply_congr (h.imp_right fun h => ?_)
    simpa [isPersonal, hkind, hfound] using h

/-- The conditions of a term are the same for viewers who go by one name. -/
theorem Term.conditions_congr (h : SameIdentity viewer other) (t : Term) :
    t.conditions config viewer now = t.conditions config other now := by
  unfold conditions
  split
  next hkind => rw [effect_congr hkind (Or.inl h)]
  next => rfl

namespace Draft

variable {d : Draft} {ts us : List Term}

/-- Adding a term depends neither on its token nor on more of the viewer than it looks at. -/
theorem addTerm_congr {t u : Term} (hkey : t.key = u.key)
    (h : SameIdentity viewer other ∨ t.isPersonal config = false) :
    addTerm config resolve viewer now d t = addTerm config resolve other now d u := by
  have hraw : addTerm config resolve other now d t = addTerm config resolve other now d u := by
    rw [Term.eq_of_key_eq hkey]
    rfl
  rw [← hraw]
  unfold addTerm
  cases hkind : t.kind with
  | metatag =>
    have heffect : (Registry.ofCategories config.categories).evaluate viewer now t.name
        (t.value.getD "") = (Registry.ofCategories config.categories).evaluate other now t.name
        (t.value.getD "") := Term.effect_congr hkind h
    simp only [heffect]
  | _ => rfl

/-- Adding terms depends neither on their tokens nor on more of the viewer than they look at. -/
theorem addTerms_congr_viewer (hkeys : ts.map Term.key = us.map Term.key)
    (h : ∀ t ∈ ts, SameIdentity viewer other ∨ t.isPersonal config = false) :
    addTerms config resolve viewer now d ts = addTerms config resolve other now d us := by
  induction ts generalizing us d with
  | nil =>
    obtain rfl := List.map_eq_nil_iff.1 hkeys.symm
    rfl
  | cons t rest ih =>
    cases us with
    | nil => cases hkeys
    | cons u us =>
      obtain ⟨hkey, hrest⟩ := List.cons.inj hkeys
      rw [addTerms, addTerms, addTerm_congr hkey (h t List.mem_cons_self)]
      cases addTerm config resolve other now d u with
      | error e => rfl
      | ok e => exact ih hrest fun v hv => h v (List.mem_cons_of_mem _ hv)

/-- Terms at the end are added after the others. -/
theorem addTerms_append : addTerms config resolve viewer now d (ts ++ us) =
    match addTerms config resolve viewer now d ts with
    | .ok e => addTerms config resolve viewer now e us
    | .error e => .error e := by
  induction ts generalizing d with
  | nil => rfl
  | cons t rest ih =>
    rw [List.cons_append, addTerms, addTerms]
    cases addTerm config resolve viewer now d t with
    | error e => rfl
    | ok e => exact ih

/-- The filters of a viewer are not lists of ids, so they have no part in the order of a plan. -/
theorem finalOrder_append {o : Option Order} {ks ls : List Condition}
    (hnone : ∀ k ∈ ls, idList? k = none) : finalOrder o (ks ++ ls) = finalOrder o ks := by
  have hlast : ls.reverse.findSome? idList? = none := by
    simpa [List.findSome?_eq_none_iff] using hnone
  unfold finalOrder
  rw [List.reverse_append, List.findSome?_append, hlast, Option.none_or]

/-- The order of a plan does not depend on the viewer and the text of the query. -/
theorem order_finish (viewer : Viewer) (query : String) :
    (d.finish viewer query).order = finalOrder d.order d.conditions := by
  refine finalOrder_append fun k hk => ?_
  rcases cases_of_mem_viewerConditions hk with rfl | rfl <;> rfl

end Draft

/-- The draft of some terms is the same for viewers who go by one name. -/
theorem draftOf_congr {ts : List Term} (h : SameIdentity viewer other) :
    draftOf config resolve viewer now ts = draftOf config resolve other now ts := by
  unfold draftOf
  rw [Draft.addTerms_congr_viewer rfl fun _ _ => Or.inl h]

end Imageboard.Query
