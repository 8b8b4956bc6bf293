import Imageboard.Proofs.Store.Mirroring
import Imageboard.Store.Pages
import Imageboard.Store.Relationships
import Imageboard.Store.Tagging

/-!
# Questions and changes without time stamps

No question that commands ask of the contents depends on the time stamps which work puts on records, and
no change does but for the stamps that it puts on records itself. So a change that stamps comes to the
same as the change that puts no time on contents without stamps: there is one such statement for each
question and each change.
-/

namespace Imageboard

namespace Contents

open Work

variable {c : Contents}

/-! ## Tags, posts and taggings -/

/-- A tag is found by its name with other stamps. -/
theorem findTag?_undated (c : Contents) (name : String) :
    c.undated.findTag? name = (c.findTag? name).map Tag.undated := by
  rw [findTag?, findTag?, undated, List.find?_map]
  rfl

/-- References of taggings point to the same records. -/
theorem taggingRefers_undated (c : Contents) (t : Tagging) :
    c.undated.taggingRefers t = c.taggingRefers t := by
  simp only [taggingRefers, refersToPost, refersToTag, undated, List.any_map]
  rfl

/-- Records that change in the same way up to what is erased do so where it is erased already. -/
theorem map_map_ite {α : Type} {p : α → Prop} [DecidablePred p] {e f g : α → α}
    (hp : ∀ a, p (e a) ↔ p a) (hfg : ∀ a, e (f a) = g (e a)) (l : List α) :
    (l.map fun a => if p a then f a else a).map e =
      (l.map e).map fun a => if p a then g a else a := by
  rw [List.map_map, List.map_map]
  refine List.map_congr_left fun a _ => ?_
  by_cases ha : p a
  · simp only [Function.comp_apply, if_pos ha, if_pos ((hp a).2 ha), hfg]
  · simp only [Function.comp_apply, if_neg ha, if_neg fun h => ha ((hp a).1 h)]

/-- Tags that change in the same way up to their stamps do so in contents without stamps. -/
theorem undated_mapTags {p : Tag → Bool} {f g : Tag → Tag} (hp : ∀ t, p t.undated = p t)
    (hfg : ∀ t, (f t).undated = g t.undated) : (c.mapTags p f).undated = c.undated.mapTags p g := by
  have hmap := map_map_ite (p := fun t => p t = true) (fun t => by rw [hp]) hfg c.tags
  simp only [mapTags, undated, hmap]

/-- Posts that change in the same way up to their stamps do so in contents without stamps. -/
theorem undated_mapPosts {p : Post → Bool} {f g : Post → Post} (hp : ∀ q, p q.undated = p q)
    (hfg : ∀ q, (f q).undated = g q.undated) : (c.mapPosts p f).undated = c.undated.mapPosts p g := by
  have hmap := map_map_ite (p := fun q => p q = true) (fun q => by rw [hp]) hfg c.posts
  simp only [mapPosts, undated, hmap]

/-- A tag is added with stamps as it is without. -/
theorem undatedOutcome_addTag (name : String) (category : Int) (stamp : Value) (c : Contents) :
    undatedOutcome Tag.undated (c.addTag name category stamp) =
      c.undated.addTag name category .null := by
  have hany : c.undated.tags.any (·.name = name) = c.tags.any (·.name = name) := by
    rw [undated, List.any_map]
    rfl
  have hids : c.undated.tags.map (·.id) = c.tags.map (·.id) := by
    rw [undated, List.map_map]
    rfl
  rw [addTag, addTag, hany, hids]
  split
  · rfl
  · simp [undatedOutcome, Except.map, undated, Tag.undated]

/-- The posts of tags are counted anew with stamps as they are without. -/
theorem undated_recount (ids : List Int) (stamp : Value) (c : Contents) :
    (c.recount ids stamp).undated = c.undated.recount ids .null :=
  undated_mapTags (fun _ => rfl) fun _ => rfl

/-- Posts are stamped, and without stamps nothing has changed. -/
theorem undated_touch (ids : List Int) (stamp : Value) (c : Contents) :
    (c.touch ids stamp).undated = c.undated.touch ids .null :=
  undated_mapPosts (fun _ => rfl) fun _ => rfl

/-- A tag is put on the posts of another as it is without stamps. -/
theorem map_undated_copyTaggings (source target : Int) (c : Contents) :
    (c.copyTaggings source target).map undated = c.undated.copyTaggings source target := by
  let fresh := ((c.postIdsWith source).map (⟨·, target⟩)).filter fun t => !c.taggings.contains t
  have hrefers : ({ c with taggings := c.taggings ++ fresh } : Contents).undated.taggingRefers =
      ({ c with taggings := c.taggings ++ fresh } : Contents).taggingRefers :=
    funext fun t => taggingRefers_undated _ t
  change (requireReferences (fresh.all ({ c with taggings := c.taggings ++ fresh } :
      Contents).taggingRefers) _).map undated =
    requireReferences (fresh.all ({ c with taggings := c.taggings ++ fresh } :
      Contents).undated.taggingRefers) _
  rw [hrefers, requireReferences, requireReferences]
  split <;> rfl

/-! ## Relationships -/

/-- The relationships of a kind are the same without their stamps. -/
theorem relationships_undated (c : Contents) (kind : RelationshipKind) :
    c.undated.relationships kind = (c.relationships kind).map Relationship.undated := by
  cases kind <;> rfl

/-- Relationships are replaced in contents without stamps. -/
theorem undated_withRelationships (c : Contents) (kind : RelationshipKind) (rs : List Relationship) :
    (c.withRelationships kind rs).undated =
      c.undated.withRelationships kind (rs.map Relationship.undated) := by
  cases kind <;> rfl

/-- The latest of some relationships is the latest with other stamps. -/
theorem latest?_map_undated (rs : List Relationship) :
    latest? (rs.map Relationship.undated) = (latest? rs).map Relationship.undated := by
  induction rs with
  | nil => rfl
  | cons r rest ih =>
    rw [List.map_cons, latest?, latest?, ih]
    cases latest? rest with
    | none => rfl
    | some s =>
      change (if s.id > r.id then some s.undated else some r.undated) =
        Option.map Relationship.undated (if s.id > r.id then some s else some r)
      split <;> rfl

/-- A relationship is found between two names with other stamps. -/
theorem findRelationship?_undated (c : Contents) (kind : RelationshipKind)
    (antecedent consequent status : String) :
    c.undated.findRelationship? kind antecedent consequent status =
      (c.findRelationship? kind antecedent consequent status).map Relationship.undated := by
  rw [findRelationship?, findRelationship?, relationships_undated, List.filter_map,
    latest?_map_undated]
  rfl

/-- The relationships in force are the same without their stamps. -/
theorem activeRelationships_undated (c : Contents) (kind : RelationshipKind) :
    c.undated.activeRelationships kind =
      (c.activeRelationships kind).map Relationship.undated := by
  rw [activeRelationships, activeRelationships, relationships_undated, List.filter_map]
  exact (List.map_mergeSort (f := Relationship.undated) fun _ _ _ _ => rfl).symm

/-- A name stands for the same. -/
theorem aliasOf?_undated (c : Contents) (name : String) :
    c.undated.aliasOf? name = c.aliasOf? name := by
  rw [aliasOf?, aliasOf?, undated, List.filter_map, latest?_map_undated, Option.map_map]
  rfl

/-- A record is checked against others without regard to stamps. -/
theorem checkRelationship_undated (kind : RelationshipKind) (others : List Relationship)
    (r : Relationship) :
    checkRelationship kind (others.map Relationship.undated) r.undated =
      checkRelationship kind others r := by
  rw [checkRelationship, checkRelationship, List.any_map]
  rfl

section Updates

variable {kind : RelationshipKind} {p : Relationship → Bool} {f g : Relationship → Relationship}

/-- Relationships that change in the same way up to their stamps do so without stamps. -/
theorem updateRelationships_undated (hp : ∀ r, p r.undated = p r)
    (hfg : ∀ r, (f r).undated = g r.undated) (done rs : List Relationship) :
    (updateRelationships kind p f done rs).map (List.map Relationship.undated) =
      updateRelationships kind p g (done.map Relationship.undated)
        (rs.map Relationship.undated) := by
  induction rs generalizing done with
  | nil => rfl
  | cons r rest ih =>
    rw [List.map_cons, updateRelationships, updateRelationships, hp]
    split
    · rw [← hfg, ← List.map_append, checkRelationship_undated]
      cases checkRelationship kind (done ++ rest) (f r) with
      | error e => rfl
      | ok =>
        dsimp only
        rw [ih, List.map_append, List.map_singleton]
    · rw [ih, List.map_append, List.map_singleton]

/-- Relationships are changed with stamps as they are without. -/
theorem undatedOutcome_editRelationships (hp : ∀ r, p r.undated = p r)
    (hfg : ∀ r, (f r).undated = g r.undated) (c : Contents) :
    undatedOutcome id (c.editRelationships kind p f) = c.undated.editRelationships kind p g := by
  have hcount : ((c.relationships kind).map Relationship.undated).countP p =
      (c.relationships kind).countP p := by
    rw [List.countP_map]
    congr 1
    exact funext hp
  have hupdate : (updateRelationships kind p f [] (c.relationships kind)).map _ =
      updateRelationships kind p g [] _ := updateRelationships_undated hp hfg [] _
  rw [editRelationships, editRelationships, relationships_undated, hcount, ← hupdate]
  cases updateRelationships kind p f [] (c.relationships kind) with
  | error e => rfl
  | ok rs =>
    exact congrArg (fun d => Except.ok (((c.relationships kind).countP p : Int), d))
      (undated_withRelationships c kind rs)

end Updates

/-- A relationship is added with stamps as it is without. -/
theorem undatedOutcome_addRelationship (kind : RelationshipKind)
    (antecedent consequent status : String) (forumTopicId creatorId : Option Int) (stamp : Value)
    (c : Contents) :
    undatedOutcome Relationship.undated
        (c.addRelationship kind antecedent consequent status forumTopicId creatorId stamp) =
      c.undated.addRelationship kind antecedent consequent status forumTopicId creatorId .null := by
  have hids : ((c.relationships kind).map Relationship.undated).map (·.id) =
      (c.relationships kind).map (·.id) := by
    rw [List.map_map]
    rfl
  rw [addRelationship, addRelationship, relationships_undated]
  dsimp only
  rw [hids]
  cases Status.named? status with
  | none => rfl
  | some status =>
    let r : Relationship := ⟨nextId ((c.relationships kind).map (·.id)), antecedent, consequent, status,
      forumTopicId, creatorId, none, stamp, stamp⟩
    have hcheck := checkRelationship_undated kind (c.relationships kind) r
    have hadded := undated_withRelationships c kind (c.relationships kind ++ [r])
    rw [List.map_append, List.map_singleton] at hadded
    change undatedOutcome Relationship.undated
        ((checkRelationship kind (c.relationships kind) r).map _) =
      (checkRelationship kind ((c.relationships kind).map Relationship.undated) r.undated).map _
    rw [hcheck]
    cases checkRelationship kind (c.relationships kind) r with
    | error e => rfl
    | ok => exact congrArg (fun d => Except.ok (r.undated, d)) hadded

/-! ## Pages -/

/-- A wiki page is renamed with a stamp as it is without. -/
theorem undatedOutcome_renameWikiPage (oldTitle newTitle : String) (stamp : Value) (c : Contents) :
    undatedOutcome id (c.renameWikiPage oldTitle newTitle stamp) =
      c.undated.renameWikiPage oldTitle newTitle .null := by
  have hany : ∀ title, c.undated.wikiPages.any (·.title = title) =
      c.wikiPages.any (·.title = title) := fun title => by
    rw [undated, List.any_map]
    rfl
  rw [renameWikiPage, renameWikiPage, hany, hany]
  split
  · rfl
  · split
    · rfl
    · have hmap := map_map_ite (p := fun w : WikiPage => w.title = oldTitle)
        (e := WikiPage.undated)
        (f := fun w => { w with title := newTitle, updatedAt := stamp })
        (g := fun w => { w with title := newTitle, updatedAt := .null })
        (fun _ => Iff.rfl) (fun _ => rfl) c.wikiPages
      simp only [undatedOutcome, Except.map, undated, id, hmap]

/-- An artist is renamed with a stamp as it is without. -/
theorem undatedOutcome_renameArtist (oldName newName : String) (stamp : Value) (c : Contents) :
    undatedOutcome id (c.renameArtist oldName newName stamp) =
      c.undated.renameArtist oldName newName .null := by
  have hany : ∀ name, c.undated.artists.any (·.name = name) = c.artists.any (·.name = name) :=
    fun name => by
      rw [undated, List.any_map]
      rfl
  rw [renameArtist, renameArtist, hany, hany]
  split
  · rfl
  · split
    · rfl
    · have hmap := map_map_ite (p := fun a : Artist => a.name = oldName)
        (e := Artist.undated)
        (f := fun a => { a with name := newName, updatedAt := stamp })
        (g := fun a => { a with name := newName, updatedAt := .null })
        (fun _ => Iff.rfl) (fun _ => rfl) c.artists
      simp only [undatedOutcome, Except.map, undated, id, hmap]

end Contents

end Imageboard
