import Imageboard.Bulk.MassUpdate
import Imageboard.Bulk.Script
import Imageboard.Relationship.Approval

/-!
# Bulk updates

A script is applied as a whole, in one transaction: either all its commands take effect in their
order, and the jobs of its mass updates are put into the queue, or nothing does and the outcome says
which command failed and why.
-/

namespace Imageboard.Bulk

open Store Relationship

/-- A bulk update: a script with the choices made for it. -/
structure Update where
  text : String
  forumTopicId : Option Int
  /-- Whether approved aliases rename pages. -/
  renamesPages : Bool
  /-- Whether wiki pages and post counts are not checked. -/
  skipsSecondary : Bool
  config : Config
  deriving DecidableEq, Repr

/-- A command that was applied, with the number of posts that it changed. -/
structure Mutation where
  command : NumberedCommand
  postCount : Int
  deriving DecidableEq, Repr

/-- How a bulk update ended. -/
inductive Outcome where
  | success (mutations : List Mutation)
  | failure (cause : Failure) (command : Option NumberedCommand)
  deriving DecidableEq, Repr

namespace Outcome

/-- The message of a failed bulk update; it names the command unless the cause does. -/
def failureMessage (cause : Failure) : Option NumberedCommand → String
  | none => cause.message
  | some c =>
    match cause with
    | .invalid _ (some request) =>
      if request.isEmpty then
        cause.message ++ " (line " ++ toString c.lineNumber ++ ": " ++ c.command.describe ++ ")"
      else cause.message
    | _ => cause.message ++ " (line " ++ toString c.lineNumber ++ ": " ++ c.command.describe ++ ")"

end Outcome

namespace Update

/-- The update of a text that makes no special choices. -/
def ofText (text : String) (config : Config) : Update :=
  ⟨text, none, false, true, config⟩

/-- The commands of the script. -/
def commands (u : Update) : Except Failure (List NumberedCommand) :=
  readScript u.text

/-- The rules that a command breaks now. -/
def errorsOf (u : Update) : Command → Work (List String)
  | .createAlias a c => aliasErrors a c u.config u.skipsSecondary
  | .createImplication a c => implicationErrors a c u.skipsSecondary
  | _ => return []

/-- Refuses the first of some commands that breaks rules. -/
def validateEach (u : Update) : List NumberedCommand → Work Unit
  | [] => return ()
  | c :: rest => do
    refuseIfAny (← u.errorsOf c.command) c.command.describe
    validateEach u rest

/-- Checks the script without changing anything. -/
def validate (u : Update) : Work Unit := do
  u.validateEach (← Work.lift u.commands)

/-- Takes the relationship in force between two names out of force. -/
def remove (kind : RelationshipKind) (word antecedent consequent : String) : Work Int := do
  match ← findRelationship kind antecedent consequent "active" with
  | none => throw (.notFound (word ++ " for " ++ antecedent))
  | some r =>
    reject kind r
    return 0

/-- Gives a tag another category. -/
def changeCategory (u : Update) (name category : String) : Work Int := do
  let code ← Work.lift (u.config.categories.codeOf category)
  match ← getTag name with
  | none => throw (.notFound ("Tag " ++ name))
  | some tag =>
    setTagCategory tag.id code
    return tag.postCount

/-- Applies a command in the transaction with a number. -/
def applyCommand (u : Update) (viewer : Viewer) (transaction : Nat) : Command → Work Int
  | .createAlias a c => do
    let r ← createAlias a c u.config u.forumTopicId viewer.userId u.skipsSecondary
    approveAlias r viewer.userId u.renamesPages
  | .createImplication a c => do
    let r ← createImplication a c u.forumTopicId viewer.userId u.skipsSecondary
    approveImplication r viewer.userId
  | .removeAlias a c => remove .alias "Alias" a c
  | .removeImplication a c => remove .implication "Implication" a c
  | .massUpdate query replacement => do
    Work.afterCommit transaction (.enqueue ⟨query, replacement, viewer.userId, viewer.userName⟩)
    return 0
  | .changeCategory tag category => u.changeCategory tag category

/-- The failure of a command as the outcome states it; other failures end the update at once. -/
def reported? (c : NumberedCommand) : Failure → Option Failure
  | .invalid messages request => some (.invalid messages request)
  | .notFound subject => some (.notFound subject)
  | .store cause => some (.execution .applying cause (some c.command.describe))
  | _ => none

/-- Applies commands up to the first that fails; `done` holds those before. -/
def applyEach (u : Update) (viewer : Viewer) (transaction : Nat) :
    List Mutation → List NumberedCommand → Work Outcome
  | done, [] => return .success done
  | done, c :: rest => do
    let applied ← Work.ofRun fun s others =>
      match (u.applyCommand viewer transaction c.command).runOn s others with
      | (.ok n, after) => (.ok (Except.ok n), after)
      | (.error e, after) =>
        match reported? c e with
        | some cause => (.ok (.error cause), after)
        | none => (.error e, after)
    match applied with
    | .error cause => return .failure cause (some c)
    | .ok n => applyEach u viewer transaction (done ++ [⟨c, n⟩]) rest

/-- Applies the script in the transaction with a number, without ending it. -/
def apply (u : Update) (viewer : Viewer) (transaction : Nat) : Work Outcome := do
  u.applyEach viewer transaction [] (← Work.lift u.commands)

/-- Ends the transaction with a number as an outcome demands. -/
def conclude (transaction : Nat) : Outcome → Work Outcome
  | .success mutations =>
    Work.ofRun fun s others =>
      match (Work.commit transaction).runOn s others with
      | (.ok (), after) => (.ok (.success mutations), after)
      | (.error (.execution activity cause command), after) =>
        (.ok (.failure (.execution activity cause command) none), after)
      | (.error e, after) => (.error e, after)
  | .failure cause command => do
    Work.rollback transaction
    return .failure cause command

/-- Applies the script in a transaction of its own and ends it. -/
def applyAndConclude (u : Update) (viewer : Viewer) (transaction : Nat) : Work Outcome := do
  let outcome ← Work.ofRun fun s others =>
    match (u.apply viewer transaction).runOn s others with
    | (.ok outcome, after) => (.ok outcome, after)
    | (.error e, after) =>
      (.error e, if after.isOpen transaction then after.rolledBack else after)
  conclude transaction outcome

/-- Applies the script as a whole or not at all. -/
def process (u : Update) (viewer : Viewer) : Work Outcome := do
  match u.commands with
  | .error e => return .failure e none
  | .ok _ =>
    let begun ← Work.ofRun fun s others =>
      match Work.begin.runOn s others with
      | (.ok n, after) => (.ok (Except.ok n), after)
      | (.error (.execution activity cause command), after) =>
        (.ok (.error (.execution activity cause command)), after)
      | (.error e, after) => (.error e, after)
    match begun with
    | .error e => return .failure e none
    | .ok transaction => u.applyAndConclude viewer transaction

/-- The number of posts that a command would change. -/
def estimateCommand (u : Update) : Command → Work Int
  | .createAlias a _ | .createImplication a _ => postCountOf a
  | .massUpdate query _ => estimateMassUpdate u.config .anonymous query
  | .changeCategory tag _ => postCountOf tag
  | _ => return 0

/-- The sum of what some commands would change. -/
def estimateEach (u : Update) : List NumberedCommand → Work Int
  | [] => return 0
  | c :: rest => do
    let count ← u.estimateCommand c.command
    let more ← estimateEach u rest
    return count + more

/-- The number of posts that the script would change, each command counted by itself. -/
def estimate (u : Update) : Work Int := do
  u.estimateEach (← Work.lift u.commands)

/-- The plain tags that a query names. -/
def tagsIn (config : Config) (query : String) : Except Failure (List String) :=
  (Query.tokenize query).map (Query.scanTags (Query.Registry.ofCategories config.categories).names)

/-- The tags that a command names. -/
def tagsOf (u : Update) : Command → Except Failure (List String)
  | .massUpdate query replacement =>
    match tagsIn u.config query with
    | .error e => .error e
    | .ok first => (tagsIn u.config replacement).map (first ++ ·)
  | .changeCategory tag _ => .ok [tag]
  | c => .ok [c.sides.1, c.sides.2]

/-- The tags that the script names, sorted. -/
def affectedTags (u : Update) : Except Failure (List String) :=
  match u.commands with
  | .error e => .error e
  | .ok cs =>
    (cs.mapM fun c => u.tagsOf c.command).map fun names =>
      (Query.distinct names.flatten).mergeSort (· ≤ ·)

end Update

end Imageboard.Bulk
