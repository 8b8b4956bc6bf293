import Imageboard.Proofs.Search.Privacy
import Imageboard.Proofs.Search.SinglePredicates

/-!
# What the votes of namesakes show

Votes are private but for those of users who go by the name of the viewer in lower case, and of these
none are: where such a name can be written in a query as it stands, the viewer can ask for the votes of
that name, and finds a post if and only if one of its users has voted for it.
-/

namespace Imageboard

open Query

variable {viewer : Viewer} {name : String}

namespace Query

/-- Whether a name can be written in a query as it stands, and does not stand for the viewer there. -/
structure IsSpoken (name : String) : Prop where
  ne_nil : name.toList ≠ []
  plain : ∀ c ∈ name.toList, Text.isBlank c = false ∧ c ≠ '"'
  not_self : Text.lowerString name ≠ "self"

/-- The term that asks for the upvotes of a name. -/
def upvoteTerm (name : String) : Term :=
  ⟨.metatag, .required, "upvote", some name, "upvote:" ++ name⟩

/-- A query for the upvotes of a name is that one term. -/
theorem readTerms_upvote (h : IsSpoken name) :
    readTerms .standard ("upvote:" ++ name) = .ok [upvoteTerm name] := by
  have hlist : ("upvote:" ++ name).toList = "upvote".toList ++ ':' :: name.toList := by
    simp [String.toList_append]
  have hplain : ∀ c ∈ ("upvote:" ++ name).toList, Text.isBlank c = false ∧ c ≠ '"' := by
    have hmark : "upvote:".toList.all (fun c => !Text.isBlank c && c != '"') = true := by decide +kernel
    rw [String.toList_append]
    intro c hc
    rcases List.mem_append.1 hc with hc | hc
    · simpa using List.all_eq_true.1 hmark c hc
    · exact h.plain c hc
  have hnil : "upvote:" ++ name ≠ "" := by simp
  have hsplit : splitKey? ("upvote:" ++ name).toList = some ("upvote".toList, name.toList) :=
    splitKey?_eq_some_iff.2 ⟨hlist, by decide, h.ne_nil, by decide⟩
  have hpolarity : splitPolarity ("upvote:" ++ name).toList =
      (.required, ("upvote:" ++ name).toList) := by
    rw [hlist]
    rfl
  have hlower : String.ofList (Text.lower "upvote".toList) = "upvote" := by decide +kernel
  have hmetatag : "upvote" ∈ (Registry.ofCategories Config.standard.categories).names := by
    decide +kernel
  have hterm := classifyToken_of_metatag hpolarity (by decide) hsplit hlower (by decide) hmetatag
  rw [readTerms, tokenize_of_plain hnil hplain]
  simp only [Except.map, classify, List.map_cons, List.map_nil, hterm, String.ofList_toList, upvoteTerm]

/-- A viewer's own name in the letters of a user asks for the votes of that user. -/
theorem effect_upvote (h : IsSpoken name) (hself : viewer.isSelf name = true) (now : Moment) :
    (upvoteTerm name).effect .standard viewer now = .ok (.select (.relation .upvote (.text name))) := by
  have hfound : (Registry.ofCategories Config.standard.categories).find? (Text.lowerString "upvote") =
      some (.vote .upvote) := by decide +kernel
  have hnamed : userNamed? viewer name = some name := if_neg h.not_self
  unfold Term.effect Registry.evaluate upvoteTerm
  simp only [hfound, Option.getD_some, Handler.apply, hnamed, hself, Bool.or_true, if_true]

/-- The term of such a query asks for these votes and for nothing else. -/
theorem asksFor_upvoteTerm (h : IsSpoken name) (hself : viewer.isSelf name = true) (now : Moment) :
    (upvoteTerm name).AsksFor .standard viewer now (.relation .upvote (.text name)) where
  metatag := rfl
  required := rfl
  other := show "upvote" ≠ "status" by decide
  effect := effect_upvote h hself now

end Query

namespace Searcher

variable {s : Searcher}

/-- Who goes by a name in lower case can ask for the votes of that name: the search finds, of the posts
that the filters leave, those that a user of the name has voted for. -/
theorem exists_search_upvote (h : IsSpoken name) (hself : viewer.isSelf name = true)
    (htables : ∀ t ∈ [Table.posts, .votes, .users], s.store.contents.has t)
    (hids : (s.store.contents.posts.map (·.id)).Nodup) :
    ∃ ids, ((search .standard viewer ("upvote:" ++ name) none 0).runOn s).1 = .ok ids ∧
      ∀ id, id ∈ ids ↔ ∃ p ∈ s.store.contents.posts, p.id = id ∧ viewer.Leaves p ∧
        Search.hasVote s.store.contents p (.text name) (0 < ·) = true := by
  have hlimit : 1 ≤ Config.standard.tagQueryLimit := by decide
  obtain ⟨ids, hrun, -, hmem⟩ := exists_search_of_asksFor hlimit (readTerms_upvote h)
    (asksFor_upvoteTerm h hself (referenceMoment viewer s.store.clock)) ⟨_, rfl⟩
    (htables _ List.mem_cons_self) (fun t ht => htables t (List.mem_cons_of_mem _ ht)) rfl hids
  refine ⟨ids, congrArg Prod.fst hrun, fun id => (hmem id).trans ?_⟩
  simp only [Search.truthOf, Search.related, Option.some.injEq]

/-- No votes of a user who goes by the name of the viewer are private, if the name can be written: a post
is found by a search if the user has voted for it, and is not if nobody has. -/
theorem exists_search_apart {u : User} {p : Post} (h : IsSpoken u.name)
    (hself : viewer.isSelf u.name = true) (hu : u ∈ s.store.contents.users)
    (hp : p ∈ s.store.contents.posts) (hleaves : viewer.Leaves p)
    (htables : ∀ t ∈ [Table.posts, .votes, .users], s.store.contents.has t)
    (hids : (s.store.contents.posts.map (·.id)).Nodup) :
    ∃ query ids ids',
      ((search .standard viewer query none 0).runOn (s.withVotes [⟨p.id, u.id, 1, .null⟩])).1 =
        .ok ids ∧ p.id ∈ ids ∧
      ((search .standard viewer query none 0).runOn (s.withVotes [])).1 = .ok ids' ∧
        p.id ∉ ids' := by
  obtain ⟨ids, hrun, hmem⟩ :=
    exists_search_upvote (s := s.withVotes [⟨p.id, u.id, 1, .null⟩]) h hself htables hids
  obtain ⟨ids', hrun', hmem'⟩ := exists_search_upvote (s := s.withVotes []) h hself htables hids
  refine ⟨_, ids, ids', hrun, (hmem p.id).2 ⟨p, hp, rfl, hleaves, ?_⟩, hrun', fun hid => ?_⟩
  · have hown : Search.isOfUser (s.withVotes [⟨p.id, u.id, 1, .null⟩]).store.contents (.text u.name)
        u.id = true := List.any_eq_true.2 ⟨u, hu, by simp [Search.textOf?]⟩
    refine List.any_eq_true.2 ⟨⟨p.id, u.id, 1, .null⟩, List.mem_cons_self, ?_⟩
    simp [hown]
  · obtain ⟨q, -, -, -, hvote⟩ := (hmem' p.id).1 hid
    cases hvote

end Searcher

end Imageboard
