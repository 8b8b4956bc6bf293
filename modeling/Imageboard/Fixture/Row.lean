import Imageboard.Fixture.Cell

/-!
# Rows of a fixture

A row describes a post that is to be made. Of its fields only the tags are needed; the reader fills
most of the others in.
-/

namespace Imageboard.Fixture

/-- What a fixture says about one post. -/
structure Row where
  tagString : Option String
  rating : Option String
  source : Option String
  md5 : Option String
  fileExt : Option String
  fileSize : Option Int
  imageWidth : Option Int
  imageHeight : Option Int
  score : Option Int
  parentId : Option Int
  /-- The name of the user who uploaded the post. -/
  uploader : Option String
  /-- The name of the user who approved the post. -/
  approver : Option String
  isPending : Option Bool
  isFlagged : Option Bool
  isDeleted : Option Bool
  isBanned : Option Bool
  createdAt : Option String
  deriving DecidableEq, Repr

namespace Row

/-- The name of the column that a fixture must have. -/
def tagColumn : String := "tag_string"

/-- The first letter of a rating, in lower case. -/
def ratingLetter (rating : String) : String :=
  Text.lowerString (String.ofList (rating.toList.take 1))

/-- The row that the cells of some columns describe. -/
def ofCells (cell : String → Cell) : Row :=
  let text (name : String) : Option String := (cell name).asText?
  let integer (name : String) : Option Int := (cell name).asInteger?
  let switch (name : String) : Option Bool := some ((cell name).asFlag?.getD false)
  { tagString := text tagColumn
    rating := some (ratingLetter ((text "rating").getD "q"))
    source := some ((text "source").getD "")
    md5 := text "md5"
    fileExt := some ((text "file_ext").getD "jpg")
    fileSize := some ((integer "file_size").getD 0)
    imageWidth := some ((integer "image_width").getD 0)
    imageHeight := some ((integer "image_height").getD 0)
    score := some ((integer "score").getD 0)
    parentId := integer "parent_id"
    uploader := text "uploader"
    approver := text "approver"
    isPending := switch "is_pending"
    isFlagged := switch "is_flagged"
    isDeleted := switch "is_deleted"
    isBanned := switch "is_banned"
    createdAt := text "created_at" }

/-- A cell of a text or nothing. -/
def textCell : Option String → Cell
  | some s => .text s
  | none => .empty

/-- A cell of a number or nothing. -/
def integerCell : Option Int → Cell
  | some n => .integer n
  | none => .empty

/-- A cell of a switch or nothing. -/
def flagCell : Option Bool → Cell
  | some b => .flag b
  | none => .empty

/-- The cells of a row under the names of their columns. -/
def cells (r : Row) : List (String × Cell) :=
  [(tagColumn, textCell r.tagString), ("rating", textCell r.rating),
   ("source", textCell r.source), ("md5", textCell r.md5), ("file_ext", textCell r.fileExt),
   ("file_size", integerCell r.fileSize), ("image_width", integerCell r.imageWidth),
   ("image_height", integerCell r.imageHeight), ("score", integerCell r.score),
   ("parent_id", integerCell r.parentId), ("uploader", textCell r.uploader),
   ("approver", textCell r.approver), ("is_pending", flagCell r.isPending),
   ("is_flagged", flagCell r.isFlagged), ("is_deleted", flagCell r.isDeleted),
   ("is_banned", flagCell r.isBanned), ("created_at", textCell r.createdAt)]

/-- The names of the columns in their order. -/
def columns : List String :=
  (ofCells fun _ => .empty).cells.map (·.1)

/-- Whether a row says which tags its post is to have. -/
def hasTags (r : Row) : Bool :=
  r.tagString.any fun s => !(Text.trim s.toList).isEmpty

end Row

end Imageboard.Fixture
