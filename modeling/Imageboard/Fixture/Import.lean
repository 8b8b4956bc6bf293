import Imageboard.Fixture.Reader
import Imageboard.Store.Tagging

/-!
# Importing fixtures

The posts of a fixture are made in one transaction, so either all of them are there or none. A tag
may be given with a category before a colon; the tag then takes that category. Rows without tags are
passed over.
-/

namespace Imageboard.Fixture

/-- The name of a tag and the code of the category that it is given with. -/
def splitCategory (categories : Categories) (token : String) : String × Option Int :=
  let cs := token.toList
  let before := cs.takeWhile (· ≠ ':')
  match cs.drop (before.length + 1) with
  | [] => (TagName.normalize token, none)
  | name =>
    match categories.find? (String.ofList before) with
    | some c => (TagName.normalize (String.ofList name), some c.code)
    | none => (TagName.normalize token, none)

/-- Makes the tag with a name, if there is none, and gives it a category. -/
def categorize (name : String) (code : Int) : Work Unit := do
  let tag ← Store.findOrCreateTag name (some code)
  if tag.category ≠ code then Store.setTagCategory tag.id code

/-- The names of the tags that some tokens stand for; tags that are given with a category take
it. -/
def prepareTags (categories : Categories) : List String → Work (List String)
  | [] => return []
  | token :: rest => do
    let (name, code) := splitCategory categories token
    if name.isEmpty then prepareTags categories rest
    else
      if let some code := code then categorize name code
      let names ← prepareTags categories rest
      return name :: names

/-- The id of the user with a name, if a name is given. -/
def userNamed (name : Option String) : Work (Option Int) := do
  match name with
  | none => return none
  | some name => if name.isEmpty then return none else return some (← Store.findOrCreateUser name)

/-- The draft of the post that a row describes. -/
def Row.draft (r : Row) (uploaderId approverId : Option Int) : PostDraft :=
  let standard : PostDraft := {}
  let time := r.createdAt.filter fun s => !s.isEmpty
  { standard with
    rating := r.rating.getD standard.rating
    source := r.source.getD standard.source
    md5 := r.md5
    fileExt := r.fileExt.getD standard.fileExt
    fileSize := r.fileSize.getD standard.fileSize
    imageWidth := r.imageWidth.getD standard.imageWidth
    imageHeight := r.imageHeight.getD standard.imageHeight
    score := r.score.getD standard.score
    parentId := r.parentId
    uploaderId := uploaderId
    approverId := approverId
    isPending := (r.isPending.map Cell.ofFlag).getD standard.isPending
    isFlagged := (r.isFlagged.map Cell.ofFlag).getD standard.isFlagged
    isDeleted := (r.isDeleted.map Cell.ofFlag).getD standard.isDeleted
    isBanned := (r.isBanned.map Cell.ofFlag).getD standard.isBanned }.createdOn time

/-- The tokens that a text of tags consists of. -/
def tokens (tagString : String) : List String :=
  (Text.words tagString.toList).map String.ofList

/-- Makes the post that a row describes. -/
def importRow (r : Row) : Work Unit := do
  let uploaderId ← userNamed r.uploader
  let approverId ← userNamed r.approver
  let categories := (← get).categories
  let names ← prepareTags categories (tokens (r.tagString.getD ""))
  let _ ← Store.createPost (r.draft uploaderId approverId) names

/-- Makes the posts of some rows one after the other and counts them. -/
def importEach : List Row → Work Nat
  | [] => return 0
  | r :: rest =>
    if r.hasTags then do
      importRow r
      let more ← importEach rest
      return more + 1
    else importEach rest

/-- Makes the posts of some rows, all or none, and returns how many they are. -/
def importRows (rows : List Row) : Work Nat :=
  Work.inTransaction fun _ => importEach rows

/-- Makes the posts of the fixture at a path, from the text of its file if the file exists. -/
def importFile (path : String) (text : Option String) : Work Nat := do
  let format ← Work.lift (Format.ofPath path)
  let rows ← Work.lift (readRows format path text)
  importRows rows

end Imageboard.Fixture
