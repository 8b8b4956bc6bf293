import Imageboard.Text.Quoted

/-!
# Failures

Every way in which an operation can fail, as a cause with the data that its message needs. The
wording is in one place, `Failure.message?`; a few causes have no wording of their own.
-/

namespace Imageboard

/-- Why the store refuses a statement. -/
inductive StoreFault where
  | check (constraint : String)
  | unique (columns : String)
  | foreignKey
  | noTable (name : String)
  | locked
  | diskError
  | sumOverflow
  | nestedBegin
  | noSavepoint (name : String)
  | notAStore
  deriving DecidableEq, Repr

/-- Whether the fault is a violated constraint. -/
def StoreFault.isConstraint : StoreFault → Bool
  | .check _ | .unique _ | .foreignKey => true
  | _ => false

/-- The wording of a store fault. -/
def StoreFault.message : StoreFault → String
  | .check constraint => "CHECK constraint failed: " ++ constraint
  | .unique columns => "UNIQUE constraint failed: " ++ columns
  | .foreignKey => "FOREIGN KEY constraint failed"
  | .noTable name => "no such table: " ++ name
  | .locked => "database is locked"
  | .diskError => "disk I/O error"
  | .sumOverflow => "integer overflow"
  | .nestedBegin => "cannot start a transaction within a transaction"
  | .noSavepoint name => "no such savepoint: " ++ name
  | .notAStore => "file is not a database"

/-- What was being done when the store failed. -/
inductive Activity where
  | beginning
  | committing
  | querying
  | applying
  deriving DecidableEq, Repr

/-- The start of the message of a failed activity. -/
def Activity.describe : Activity → String
  | .beginning => "Could not begin transaction"
  | .committing => "Could not commit transaction"
  | .querying => "Query execution failed"
  | .applying => "Store operation failed"

/-- A cause of failure. -/
inductive Failure where
  /-- A quoted value is not closed; `position` characters stand before its quote. -/
  | unterminatedQuote (query : String) (position : Nat)
  /-- A value does not have the form of a range of its kind. -/
  | malformedRange (value kind : String)
  /-- A query has more tags than allowed. -/
  | tooManyTags (limit : Int)
  /-- A script line is no command. -/
  | unreadableLine (line : String) (lineNumber : Int)
  /-- A request breaks rules of the model. -/
  | invalid (messages : List String) (command : Option String)
  /-- Something that a command names does not exist. -/
  | notFound (subject : String)
  /-- The store failed during an activity. -/
  | execution (activity : Activity) (cause : StoreFault) (command : Option String)
  /-- The store refused a statement. -/
  | store (cause : StoreFault)
  /-- A value cannot be used, for the stated reason. -/
  | badValue (reason : String)
  /-- Text is no number. -/
  | malformedNumber
  /-- A value has a type that cannot be used. -/
  | wrongType
  /-- A number or a moment is out of range. -/
  | overflow
  /-- A ratio has height zero. -/
  | divisionByZero
  /-- There is no metatag of this name. -/
  | unknownMetatag (name : String)
  /-- There is no column of this name. -/
  | unknownColumn
  /-- The first of no categories was asked for. -/
  | noCategories
  /-- A file does not exist. -/
  | missingFile (reason : Option String)
  /-- A transaction was begun inside another. -/
  | transactionActive
  /-- A finished transaction was committed. -/
  | transactionInactive
  /-- A count cache is out of order. -/
  | cacheBroken
  deriving DecidableEq, Repr

namespace Failure

/-- Appends the command that was being run. -/
def withCommand (message : String) : Option String → String
  | some command => if command.isEmpty then message else message ++ " (" ++ command ++ ")"
  | none => message

/-- The wording of a failure; `none` for the causes that have none. -/
def message? : Failure → Option String
  | unterminatedQuote query position =>
    some ("Unterminated quote at position " ++ toString position ++ ": " ++ query)
  | malformedRange value kind =>
    some ("Invalid " ++ kind ++ " range: " ++ Text.quoted value)
  | tooManyTags limit =>
    some ("You cannot search for more than " ++ toString limit ++ " tags at a time")
  | unreadableLine line _ => some ("Unparseable line: " ++ line)
  | invalid messages command =>
    some (withCommand ("Error: " ++ "; ".intercalate messages) command)
  | notFound subject => some (subject ++ " not found")
  | execution activity cause command =>
    some (withCommand (activity.describe ++ ": " ++ cause.message) command)
  | store cause => some cause.message
  | badValue reason => some reason
  | unknownMetatag name => some (Text.quoted name)
  | missingFile reason => reason
  | transactionActive => some "A transaction is already active on this store"
  | transactionInactive => some "Transaction is not active"
  | malformedNumber | wrongType | overflow | divisionByZero | unknownColumn | noCategories
  | cacheBroken => none

/-- The wording of a failure, empty for the causes that have none. -/
def message (f : Failure) : String :=
  f.message?.getD ""

end Failure

/-- A result that is made of the result of another computation has that behind it. -/
theorem exists_of_map_eq_ok {ε α β : Type} {x : Except ε α} {f : α → β} {b : β}
    (h : x.map f = .ok b) : ∃ a, x = .ok a ∧ f a = b := by
  cases x with
  | error e => cases h
  | ok a => exact ⟨a, rfl, Except.ok.inj h⟩

end Imageboard
