import Imageboard.Proofs.Lookup
import Imageboard.Proofs.Search.Distinguishing
import Imageboard.Proofs.Search.FilterTerms
import Imageboard.Proofs.Search.SinglePredicates
import Imageboard.Proofs.Search.SingleTags

/-!
# What a user asks for as their own

In place of a user, a query can have the word for the viewer. It stands for the name of the viewer, and this
name is read once more where it is compared with the uploader or the approver of a post: the words for any
and none are no names there. So a user with such a name finds the posts that have an uploader or approver,
or those that have none, and every other user finds just their own. Favorites and votes are always told by
the name.
-/

namespace Imageboard

open Query

variable {config : Config} {viewer : Viewer} {c : Contents} {u : User} {p : Post}

/-- What a user can have done with a post. -/
inductive Deed where
  | upload
  | approval
  | favorite
  | upvote
  | downvote
  deriving DecidableEq, Repr

namespace Deed

/-- The metatag that asks for the posts of a user. -/
def metatag : Deed → String
  | .upload => "user"
  | .approval => "approver"
  | .favorite => "fav"
  | .upvote => "upvote"
  | .downvote => "downvote"

/-- The relation of a user and a post. -/
def relation : Deed → Relation
  | .upload => .uploader
  | .approval => .approver
  | .favorite => .fav
  | .upvote => .upvote
  | .downvote => .downvote

/-- How the metatag reads the user. -/
def handler : Deed → Handler
  | .upload => .user .uploader true
  | .approval => .user .approver true
  | .favorite => .user .fav false
  | .upvote => .vote .upvote
  | .downvote => .vote .downvote

/-- The query for the posts of the viewer. -/
def query (deed : Deed) : String :=
  deed.metatag ++ ":self"

/-- The one term of this query. -/
def term (deed : Deed) : Term :=
  ⟨.metatag, .required, deed.metatag, some "self", deed.query⟩

/-- Whether a user has done something with a post. -/
def DoneBy (c : Contents) (u : User) (p : Post) : Deed → Prop
  | .upload => p.uploaderId = some u.id
  | .approval => p.approverId = some u.id
  | .favorite => ∃ f ∈ c.favorites, f.postId = p.id ∧ f.userId = u.id
  | .upvote => ∃ v ∈ c.votes, v.postId = p.id ∧ v.userId = u.id ∧ 0 < v.score
  | .downvote => ∃ v ∈ c.votes, v.postId = p.id ∧ v.userId = u.id ∧ v.score < 0

/-- The user that a post keeps as the one who has done something with it, if it keeps only one. -/
def keptUser? (p : Post) : Deed → Option (Option Int)
  | .upload => some p.uploaderId
  | .approval => some p.approverId
  | _ => none

/-- Whether a user is found to have done something with a post: where the post keeps the user, the words for
any and none do not stand for the user of that name. -/
def FoundOf (c : Contents) (u : User) (p : Post) (deed : Deed) : Prop :=
  match deed.keptUser? p with
  | some user =>
    if u.name = "any" then user ≠ none
    else if u.name = "none" then user = none
    else deed.DoneBy c u p
  | none => deed.DoneBy c u p

/-- Every board has the metatags that ask for the posts of a user. -/
theorem find?_metatag (deed : Deed) (categories : Categories) :
    (Registry.ofCategories categories).find? deed.metatag = some deed.handler := by
  refine Registry.find?_of_fixed ?_ ?_ categories <;> cases deed <;> decide

/-- The query for the posts of the viewer is one term. -/
theorem readTerms_query (deed : Deed) (config : Config) :
    readTerms config deed.query = .ok [deed.term] := by
  cases deed <;>
    exact Search.readTerms_of_plain config (by decide) (List.all_iff_forall_prop.1 (by decide))
      (classifyToken_of_metatag rfl (by decide) rfl (by decide +kernel) (by decide)
        (Search.mem_names_of_fixed config.categories (by decide)))

/-- The word for the viewer stands for the name of the viewer, whose own votes are not private. -/
theorem asksFor_term (deed : Deed) {name : String} (hname : viewer.userName = some name) (now : Moment) :
    deed.term.AsksFor config viewer now (.relation deed.relation (.text name)) where
  metatag := rfl
  required := rfl
  other := by cases deed <;> decide
  effect := by
    have hself : viewer.isSelf name = true := by simp [Viewer.isSelf, hname]
    have hlower : Text.lowerString "self" = "self" := by decide +kernel
    have hnamed : userNamed? viewer "self" = some name := by rw [userNamed?, if_pos hlower, hname]
    have hmetatag : Text.lowerString deed.metatag = deed.metatag := by cases deed <;> decide +kernel
    unfold Term.effect Registry.evaluate term
    simp only [hmetatag, deed.find?_metatag, Option.getD_some]
    cases deed <;> simp [handler, relation, Handler.apply, hlower, hnamed, hself, isAnyOrNone]

end Deed

namespace Search

/-- With names that are those of one user each, a record is that of a user named so if it has the id of this
user. -/
theorem isOfUser_name_iff (hkeyed : c.Keyed) (hu : u ∈ c.users) {userId : Int} :
    isOfUser c (.text u.name) userId = true ↔ userId = u.id := by
  simp only [isOfUser, textOf?, Option.any_some, List.any_eq_true, Bool.and_eq_true, decide_eq_true_eq]
  constructor
  · rintro ⟨v, hv, hid, hname⟩
    rw [← hid, List.inj_on_of_nodup_map hkeyed.userNames hv hu hname]
  · rintro rfl
    exact ⟨u, hu, rfl, rfl⟩

/-- With names that are those of one user each, a name is that of this user. -/
theorem userIdOf_name (hkeyed : c.Keyed) (hu : u ∈ c.users) :
    userIdOf c (.text u.name) = .integer u.id := by
  have hfound : c.findUser? u.name = some u := (find?_key_eq_some_iff hkeyed.userNames).2 ⟨hu, rfl⟩
  simp [userIdOf, textOf?, hfound, Value.ofInteger?]

/-- The user that a post keeps is compared with the user of a name, unless the name is a word for any or
none. -/
theorem userIs_name_iff (hkeyed : c.Keyed) (hu : u ∈ c.users) {user : Option Int} :
    userIs c user (.text u.name) = some true ↔
      if u.name = "any" then user ≠ none
      else if u.name = "none" then user = none
      else user = some u.id := by
  unfold userIs
  by_cases hany : u.name = "any"
  · simp [hany, anyOrNone?, Option.isSome_iff_ne_none]
  by_cases hnone : u.name = "none"
  · simp [hnone, anyOrNone?]
  have hname : anyOrNone? (.text u.name) = none := by simp [anyOrNone?, hany, hnone]
  rw [hname, if_neg hany, if_neg hnone]
  simp only [userIdOf_name hkeyed hu]
  cases user with
  | none => simp [comparesAs, Value.ofInteger?, Value.compare?]
  | some id => simp [comparesAs, Value.ofInteger?, Value.compare?]

/-- A vote on a post is that of the user of a name. -/
theorem hasVote_name_iff (hkeyed : c.Keyed) (hu : u ∈ c.users) {wanted : Int → Bool} :
    hasVote c p (.text u.name) wanted = true ↔
      ∃ v ∈ c.votes, v.postId = p.id ∧ v.userId = u.id ∧ wanted v.score = true := by
  simp only [hasVote, List.any_eq_true, Bool.and_eq_true, decide_eq_true_eq, isOfUser_name_iff hkeyed hu]
  exact exists_congr fun v => and_congr_right fun _ => by tauto

/-- The relation of a user of a name and a post is what the user is found to have done. -/
theorem truthOf_relation_iff (hkeyed : c.Keyed) (hu : u ∈ c.users) (deed : Deed) :
    truthOf c p (.relation deed.relation (.text u.name)) = some true ↔ deed.FoundOf c u p := by
  cases deed with
  | upload => exact userIs_name_iff hkeyed hu
  | approval => exact userIs_name_iff hkeyed hu
  | favorite =>
    simp [truthOf, related, Deed.relation, Deed.FoundOf, Deed.keptUser?, Deed.DoneBy,
      isOfUser_name_iff hkeyed hu]
  | upvote =>
    simp [truthOf, related, Deed.relation, Deed.FoundOf, Deed.keptUser?, Deed.DoneBy,
      hasVote_name_iff hkeyed hu]
  | downvote =>
    simp [truthOf, related, Deed.relation, Deed.FoundOf, Deed.keptUser?, Deed.DoneBy,
      hasVote_name_iff hkeyed hu]

/-- The tables that tell what a user has done with a post. -/
theorem mem_of_mem_predicateTables {deed : Deed} {name : String} {table : Table}
    (h : table ∈ predicateTables (.relation deed.relation (.text name))) :
    table ∈ [Table.posts, .users, .favorites, .votes] := by
  have htables : predicateTables (.relation deed.relation (.text name)) ⊆
      [Table.posts, .users, .favorites, .votes] := by
    cases deed <;> simp [predicateTables, Deed.relation, relationTables]
    all_goals split <;> simp
  exact htables h

/-- A name can be bound, where it is. -/
theorem fits_relation {deed : Deed} {name : String} :
    (Condition.mk (.relation deed.relation (.text name)) false).values.all Value.fits = true := by
  have huser (column : String) : (userFragment column (.text name)).params.all Value.fits = true := by
    unfold userFragment
    split_ifs <;> rfl
  cases deed with
  | upload => exact huser "p.uploader_id"
  | approval => exact huser "p.approver_id"
  | _ => rfl

end Search

namespace Searcher

variable {s : Searcher}

/-- On every board, a viewer who is a user finds, of the posts that the filters leave, those that the user is
found to have uploaded, approved, favored or voted for or against, each once. -/
theorem exists_search_self (hconfig : config.validate = .ok config)
    (hkeyed : s.store.contents.Keyed) (hu : u ∈ s.store.contents.users)
    (hviewer : viewer.userName = some u.name)
    (htables : ∀ table ∈ [Table.posts, .users, .favorites, .votes], s.store.contents.has table)
    (deed : Deed) :
    ∃ ids, (search config viewer deed.query none 0).runOn s = (.ok ids, s) ∧ ids.Nodup ∧
      ∀ id, id ∈ ids ↔ ∃ p ∈ s.store.contents.posts, p.id = id ∧ viewer.Leaves p ∧
        deed.FoundOf s.store.contents u p := by
  obtain ⟨ids, hrun, hnodup, hmem⟩ := exists_search_of_asksFor (one_le_tagQueryLimit hconfig)
    (deed.readTerms_query config) (deed.asksFor_term hviewer (referenceMoment viewer s.store.clock))
    ⟨_, rfl⟩ (htables .posts List.mem_cons_self)
    (fun table h => htables table (Search.mem_of_mem_predicateTables h)) Search.fits_relation
    hkeyed.posts
  refine ⟨ids, hrun, hnodup, fun id => ?_⟩
  simp only [hmem, Search.truthOf_relation_iff hkeyed hu]

/-- Contents with two users, of whom one is named by the word for any, and a post of the other. -/
def anyUserContents : Contents :=
  { Contents.empty with
    users := [⟨1, "any", .null⟩, ⟨2, "bob", .null⟩]
    posts := [PostDraft.toPost { uploaderId := some 2 } 1 .null] }

/-- Bob finds the post. -/
theorem exists_search_self_bob :
    let s := Search.searcherOf anyUserContents
    let viewer := Viewer.user (some 2) (some "bob")
    Config.standard.validate = .ok .standard ∧ anyUserContents.Keyed ∧
      ⟨2, "bob", .null⟩ ∈ anyUserContents.users ∧ viewer.userName = some "bob" ∧
      ∃ ids, (search .standard viewer "user:self" none 0).runOn s = (.ok ids, s) ∧ ids.Nodup ∧
        ∀ id, id ∈ ids ↔ id = 1 := by
  intro s viewer
  have hkeyed : anyUserContents.Keyed :=
    ⟨by decide, by decide, by decide, by decide, by decide, by decide, by decide⟩
  have hbob : (⟨2, "bob", .null⟩ : User) ∈ anyUserContents.users := by decide
  have hname : viewer.userName = some "bob" := rfl
  have hconfig : Config.standard.validate = .ok .standard := rfl
  obtain ⟨ids, hrun, hnodup, hmem⟩ :=
    exists_search_self (s := s) hconfig hkeyed hbob hname (by decide) .upload
  refine ⟨hconfig, hkeyed, hbob, hname, ids, hrun, hnodup, fun id => (hmem id).trans ?_⟩
  have hpost : viewer.Leaves (PostDraft.toPost { uploaderId := some 2 } 1 .null) ∧
      Deed.upload.FoundOf anyUserContents ⟨2, "bob", .null⟩
        (PostDraft.toPost { uploaderId := some 2 } 1 .null) :=
    ⟨⟨nofun, nofun⟩, by simp [Deed.FoundOf, Deed.keptUser?, Deed.DoneBy, PostDraft.toPost]⟩
  constructor
  · rintro ⟨p, hp, rfl, -⟩
    obtain rfl := List.mem_singleton.1 hp
    rfl
  · rintro rfl
    exact ⟨_, List.mem_cons_self, rfl, hpost⟩

/-- The user named by the word for any finds the post of bob. -/
theorem search_self_any :
    let s := Search.searcherOf anyUserContents
    let viewer := Viewer.user (some 1) (some "any")
    ((search .standard viewer "user:self" none 0).runOn s).1 = .ok [1] ∧
      ∀ p ∈ anyUserContents.posts, ¬ Deed.upload.DoneBy anyUserContents ⟨1, "any", .null⟩ p := by
  refine ⟨by decide +kernel, fun p hp hdone => ?_⟩
  obtain rfl := List.mem_singleton.1 hp
  cases hdone

end Searcher

end Imageboard
