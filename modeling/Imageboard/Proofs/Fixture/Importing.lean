import Imageboard.Proofs.Fixture.Denoting
import Imageboard.Proofs.Operations
import Imageboard.Proofs.Tagging.Filing
import Mathlib.Data.List.Forall2

/-!
# Importing the rows of a fixture

Each row with tags becomes a post with the names that its tokens denote. While its tags are prepared, a name
that is given with a category takes that category, so in the end a name is in the category that it was
given with last; the posts that are made afterwards change no category. What one row does to the posts, to
the names on them and to the categories is followed through all rows, and the transaction around them
makes the import whole or nothing.
-/

namespace Imageboard.Fixture

open Store Work Contents

/-- The tokens of a row. -/
def Row.tokens (r : Row) : List String :=
  Fixture.tokens (r.tagString.getD "")

/-- The names that some tokens denote. -/
def namesOf (categories : Categories) (tokens : List String) : List String :=
  tokens.map fun token => (splitCategory categories token).1

/-- The category of each name after some tokens, of which those with a category give it to their names. -/
def refiled (categories : Categories) : (String → Int) → List String → String → Int
  | category, [] => category
  | category, token :: rest =>
    match splitCategory categories token with
    | (name, some code) => refiled categories (Function.update category name code) rest
    | (_, none) => refiled categories category rest

variable {categories : Categories} {category : String → Int} {posts : List Post}
  {names : Int → Finset String} {tokens before after : List String} {token name : String}
  {general code : Int}

/-- Tokens one after the other refile names one after the other. -/
theorem refiled_append (category : String → Int) (before after : List String) :
    refiled categories category (before ++ after) =
      refiled categories (refiled categories category before) after := by
  induction before generalizing category with
  | nil => rfl
  | cons token rest ih =>
    rw [List.cons_append, refiled, refiled]
    split <;> exact ih _

/-- A name that no token gives a category stays in its own. -/
theorem refiled_of_not_given (h : ∀ token ∈ tokens, ∀ code, ¬ Denotes categories token name (some code)) :
    refiled categories category tokens name = category name := by
  induction tokens generalizing category with
  | nil => rfl
  | cons token rest ih =>
    obtain ⟨hthis, hrest⟩ := List.forall_mem_cons.1 h
    rw [refiled]
    rcases hsplit : splitCategory categories token with ⟨other, _ | code⟩
    · exact ih hrest
    · have hother : name ≠ other := by
        rintro rfl
        exact hthis code (denotes_iff.2 hsplit)
      dsimp only
      rw [ih hrest, Function.update_of_ne hother]

/-- A name is in the category that it is given last. -/
theorem refiled_of_last (hgiven : Denotes categories token name (some code))
    (hlast : ∀ later ∈ after, ∀ code, ¬ Denotes categories later name (some code)) :
    refiled categories category (before ++ token :: after) name = code := by
  rw [refiled_append, refiled, denotes_iff.1 hgiven]
  dsimp only
  rw [refiled_of_not_given hlast, Function.update_self]

/-! ## One row -/

/-- A name that is given a category is in it then, and nothing else changes. -/
theorem leads_categorize (hname : TagName.normalize name = name) (code : Int) :
    Leads (fun c => Shows names c ∧ Filed general posts category c) (categorize name code) fun _ c =>
      Shows names c ∧ Filed general posts (Function.update category name code) c := by
  refine (leads_findOrCreateTag_given name code).bind fun t => Leads.ite (fun _ => ?_) fun hcode => ?_
  · rintro s a m others ⟨ht, hnamed, hs⟩ hrun
    have hset := leads_setTagCategory_filed t code s a m ⟨ht, hs⟩ hrun
    rwa [hnamed, hname, Function.update_idem] at hset
  · rintro s a m others ⟨-, hnamed, hs⟩ ⟨⟩
    rwa [hnamed, hname, not_ne_iff.1 hcode] at hs

/-- Preparing the tokens of a row yields the names that they denote, and refiles them. -/
theorem leads_prepareTags (h : ∀ token ∈ tokens, TagName.Storable (splitCategory categories token).1) :
    Leads (fun c => Shows names c ∧ Filed general posts category c) (prepareTags categories tokens)
      fun xs c => xs = namesOf categories tokens ∧ Shows names c ∧
        Filed general posts (refiled categories category tokens) c := by
  induction tokens generalizing category with
  | nil =>
    rintro s a m others hs ⟨⟩
    exact ⟨rfl, hs⟩
  | cons token rest ih =>
    obtain ⟨hthis, hrest⟩ := List.forall_mem_cons.1 h
    rw [prepareTags, namesOf, List.map_cons, ← namesOf, refiled]
    rcases hsplit : splitCategory categories token with ⟨name, _ | code⟩
    all_goals
      rw [hsplit] at hthis
      dsimp only at hthis ⊢
      rw [if_neg (by simpa using hthis.ne)]
    · refine (ih hrest).bind fun xs => ?_
      rintro s a m others ⟨rfl, hs⟩ ⟨⟩
      exact ⟨rfl, hs⟩
    · refine (leads_categorize hthis.normal code).bind fun _ => (ih hrest).bind fun xs => ?_
      rintro s a m others ⟨rfl, hs⟩ ⟨⟩
      exact ⟨rfl, hs⟩

/-- Registering the user of a row changes no post and no tag. -/
theorem keeps_userNamed_filed (user : Option String) :
    Keeps (fun c => Shows names c ∧ Filed general posts category c) (userNamed user) := by
  cases user with
  | none => exact keeps_pure _
  | some user =>
    refine Keeps.ite (keeps_pure _) (Keeps.bind ?_ fun _ => keeps_pure _)
    refine keeps_findOrCreateUser (fun c name stamp id d hc hd => ?_) user
    obtain ⟨-, rfl⟩ := Contents.addUser_eq_ok hd
    exact ⟨⟨hc.1.toTagRules.congr rfl rfl rfl, (tagNames_congr rfl rfl).trans hc.1.shown⟩, hc.2.posts,
      (categoryOf_congr rfl).trans hc.2.category⟩

/-- The tokens of a row denote names that can be stored. -/
theorem Row.storable_of_mem_tokens {r : Row} (h : token ∈ r.tokens) :
    TagName.Storable (splitCategory categories token).1 :=
  (denotes_splitCategory categories token).storable h

/-- A row becomes one post behind the others, with the names that its tokens denote, and its tokens
refile these names. -/
theorem leadsUnder_importRow (r : Row) :
    LeadsUnder categories (fun c => Shows names c ∧ Filed categories.generalCode posts category c)
      (importRow r) fun _ c => ∃ p : Post, (∀ q ∈ posts, q.id ≠ p.id) ∧
        Shows (Function.update names p.id (namesOf categories r.tokens).toFinset) c ∧
        Filed categories.generalCode (posts ++ [p]) (refiled categories category r.tokens) c := by
  refine (keeps_userNamed_filed r.uploader).under.bind fun uploaderId =>
    (keeps_userNamed_filed r.approver).under.bind fun approverId => leadsUnder_get.bind fun s => ?_
  rintro u a t hcategories ⟨rfl, hu⟩ hrun
  obtain ⟨xs, m, hprepare, hmake⟩ := runOn_bind_eq_ok.1 hrun
  obtain ⟨hm, rfl, hprepared⟩ := (leads_prepareTags fun token => r.storable_of_mem_tokens).under
    (keeps_prepareTags taggingKeeps_trivially s.categories _).setting u xs m hcategories hu hprepare
  obtain ⟨id, v, hcreate, hend⟩ := runOn_bind_eq_ok.1 hmake
  have hstored : ∀ x ∈ namesOf s.categories r.tokens, TagName.normalize x = x := by
    intro x hx
    obtain ⟨token, htoken, rfl⟩ := List.mem_map.1 hx
    exact (r.storable_of_mem_tokens htoken).normal
  obtain ⟨hafter, p, rfl, hnew, hmade⟩ := leadsUnder_createPost _ hstored m id v hm hprepared hcreate
  obtain ⟨-, rfl⟩ := runOn_pure_eq_ok.1 hend
  exact ⟨hafter, p, hnew, hmade⟩

/-! ## All rows -/

/-- The rows that become posts. -/
def tagged (rows : List Row) : List Row :=
  rows.filter Row.isTagged

/-- The tokens of the rows that become posts, in the order of the rows. -/
def allTokens (rows : List Row) : List String :=
  (tagged rows).flatMap Row.tokens

/-- The rows with tags become posts behind the others, each with the names that its tokens denote, and the
tokens refile these names row by row. -/
theorem leadsUnder_importEach (rows : List Row) :
    LeadsUnder categories (fun c => Shows names c ∧ Filed categories.generalCode posts category c)
      (importEach rows) fun n c => n = (tagged rows).length ∧
        ∃ (added : List Post) (shown : Int → Finset String),
          List.Forall₂ (fun r p => shown p.id = (namesOf categories r.tokens).toFinset) (tagged rows) added ∧
          (∀ p ∈ posts, shown p.id = names p.id) ∧ Shows shown c ∧
          Filed categories.generalCode (posts ++ added) (refiled categories category (allTokens rows)) c := by
  induction rows generalizing names posts category with
  | nil =>
    rintro s n t hcategories ⟨hshows, hfiled⟩ ⟨⟩
    refine ⟨hcategories, rfl, [], names, .nil, fun _ _ => rfl, hshows, ?_⟩
    rwa [List.append_nil]
  | cons r rest ih =>
    rw [importEach, r.hasTags_eq_isTagged]
    split
    next hthis =>
      have htagged : tagged (r :: rest) = r :: tagged rest := List.filter_cons_of_pos hthis
      have htokens : allTokens (r :: rest) = r.tokens ++ allTokens rest := by
        rw [allTokens, htagged, List.flatMap_cons, allTokens]
      refine (leadsUnder_importRow r).bind fun _ => ?_
      rintro s n t hcategories ⟨p, hnew, hs⟩ hrun
      obtain ⟨more, m, hmore, hend⟩ := runOn_bind_eq_ok.1 hrun
      obtain ⟨hafter, rfl, added, shown, hadded, hkept, hshows, hfiled⟩ :=
        ih s more m hcategories hs hmore
      obtain ⟨rfl, rfl⟩ := runOn_pure_eq_ok.1 hend
      refine ⟨hafter, by rw [htagged, List.length_cons], p :: added, shown, ?_, fun q hq => ?_, hshows, ?_⟩
      · -- later rows leave the names on this row's post, as it is one of the posts before them
        rw [htagged]
        refine .cons ?_ hadded
        rw [hkept p (by simp), Function.update_self]
      · rw [hkept q (List.mem_append_left _ hq), Function.update_of_ne (hnew q hq)]
      · rwa [htokens, refiled_append, List.append_cons]
    next hthis =>
      have htagged : tagged (r :: rest) = tagged rest := List.filter_cons_of_neg hthis
      rw [allTokens, htagged]
      exact ih

/-- What a successful import leaves: there are as many posts more as rows with tags, each shows the names
that the tokens of its row denote, the names on the other posts are as before, each name that was given
with a category is in the one that it was given with last, the other names are in their categories, new ones
in the general one, and the post counts are right. -/
structure Imported (categories : Categories) (rows : List Row) (n : Nat) (c d : Contents) : Prop where
  count : n = (tagged rows).length
  added : ∃ added : List Post, d.posts = c.posts ++ added ∧ added.length = n ∧
    List.Forall₂ (fun r p => ∀ x, x ∈ d.tagNames p.id ↔
      ∃ token ∈ Row.tokens r, ∃ code, Denotes categories token x code) (tagged rows) added
  kept : ∀ p ∈ c.posts, d.tagNames p.id = c.tagNames p.id
  given : ∀ before token after name code, allTokens rows = before ++ token :: after →
    Denotes categories token name (some code) →
    (∀ later ∈ after, ∀ code, ¬ Denotes categories later name (some code)) →
    d.categoryOf categories.generalCode name = code
  others : ∀ name, (∀ token ∈ allTokens rows, ∀ code, ¬ Denotes categories token name (some code)) →
    d.categoryOf categories.generalCode name = c.categoryOf categories.generalCode name
  counted : d.Counted

variable {s t : Store}

/-- The names that some tokens are split into are those that they denote. -/
theorem mem_namesOf : name ∈ namesOf categories tokens ↔
    ∃ token ∈ tokens, ∃ code, Denotes categories token name code := by
  simp only [namesOf, List.mem_map, denotes_iff]
  refine exists_congr fun token => and_congr_right fun _ => ⟨?_, ?_⟩
  · rintro rfl
    exact ⟨_, rfl⟩
  · rintro ⟨code, hsplit⟩
    rw [hsplit]

/-- An import of rows is whole or nothing: if it fails, the contents are as before, and if it succeeds with a
number, they are the contents before with what that many rows say. -/
theorem runOn_importRows (hc : s.contents.TagRules) (hcounted : s.contents.Counted) (rows : List Row) :
    (∀ e t, (importRows rows).runOn s = (.error e, t) → t.contents = s.contents) ∧
      ∀ n t, (importRows rows).runOn s = (.ok n, t) →
        Imported s.categories rows n s.contents t.contents := by
  have hsetting (u : Store) : ((importEach rows).runOn u).2.setting = u.setting :=
    (keeps_importEach taggingKeeps_trivially rows).setting u
  refine ⟨fun e t hrun => contents_of_runOn_inTransaction_eq_error (fun _ => hsetting) hrun,
    fun n t hrun => ?_⟩
  obtain ⟨-, m, hbody, hcontents⟩ := runOn_inTransaction_eq_ok (fun _ => hsetting) hrun
  have hcategories : s.begun.categories = s.categories := rfl
  obtain ⟨-, hn, added, shown, hadded, hkept, hshows, hfiled⟩ :=
    leadsUnder_importEach rows s.begun n m hcategories ⟨⟨hc, rfl⟩, ⟨rfl, rfl⟩⟩ hbody
  have hcounts := (keeps_importEach taggingKeeps_counted rows).leads s.begun n m
    (countedBut_nil_iff.2 ⟨hc.toTaggingRules, hcounted⟩) hbody
  rw [hcontents]
  exact {
    count := hn
    added := by
      refine ⟨added, hfiled.posts, hn ▸ hadded.length_eq.symm, hadded.imp fun r p hp x => ?_⟩
      rw [hshows.shown, hp, List.mem_toFinset, mem_namesOf]
    kept := fun p hp => by rw [hshows.shown, hkept p hp]; rfl
    given := fun before token after name code hall hgiven hlast => by
      rw [hfiled.category, hall, refiled_of_last hgiven hlast]
    others := fun name hnone => by
      rw [hfiled.category, refiled_of_not_given hnone]; rfl
    counted := (countedBut_nil_iff.1 hcounts).2 }

/-- A row with tags and nothing else. -/
def plainRow (tags : String) : Row :=
  .ofCells fun column => if column = Row.tagColumn then .text tags else .empty

/-- An artist who is drawn himself in a later row is a character in the end, and a row without tags is passed
over. -/
theorem runOn_importRows_wokada :
    let s : Store := .ofContents oneCatContents ⟨0, 0⟩ .standard
    let rows := [plainRow "artist:wokada cat", plainRow " ", plainRow "char:Wokada"]
    ∃ n t, (importRows rows).runOn s = (.ok n, t) ∧ n = 2 ∧
      t.contents.categoryOf 0 "wokada" = 4 ∧ t.contents.Counted := by
  intro s rows
  have hdone : ((importRows rows).runOn s).1 = .ok 2 := by decide +kernel
  obtain ⟨t, hrun⟩ := exists_runOn_eq_ok hdone
  have himported : Imported .standard rows 2 oneCatContents t.contents :=
    (runOn_importRows (s := s) tagRules_oneCatContents (by decide) rows).2 2 t hrun
  have hall : allTokens rows = ["artist:wokada", "cat"] ++ "char:Wokada" :: [] := by decide +kernel
  have hgiven : Denotes .standard "char:Wokada" "wokada" (some 4) := denotes_iff.2 (by decide +kernel)
  exact ⟨2, t, hrun, rfl, himported.given _ _ _ _ _ hall hgiven nofun, himported.counted⟩

end Imageboard.Fixture
