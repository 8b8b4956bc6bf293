import Imageboard.Bulk.Preview
import Imageboard.CommandLine.Command
import Imageboard.CommandLine.Files
import Imageboard.ConfigFile
import Imageboard.Fixture.Import
import Imageboard.Health
import Imageboard.Query.Explain
import Imageboard.Search.CountCache

/-!
# Running commands

A command reads and writes files and prints lines. Failures that a user can be told about are
printed and end the command; others end the program.
-/

namespace Imageboard.CommandLine

/-- What a command works on. -/
structure Desk where
  files : Files
  store : Store
  /-- What was printed. -/
  printed : String
  /-- What was printed as an error. -/
  reported : String
  deriving DecidableEq, Repr

/-- Work at a desk. -/
abbrev DeskWork := ExceptT Failure (StateM Desk)

/-- How a program ends. -/
inductive Ending where
  | refused (why : Refusal)
  | exit (code : Nat)
  /-- It ends without saying whether it succeeded. -/
  | done
  | failed (cause : Failure)
  deriving DecidableEq, Repr

/-- What a program leaves behind. -/
structure Outcome where
  ending : Ending
  printed : String
  reported : String
  files : Files
  deriving DecidableEq, Repr

/-- Whether a user is told about a failure. -/
def isTold : Failure → Bool
  | .store _ | .wrongType | .overflow | .divisionByZero | .unknownMetatag _ | .unknownColumn
  | .noCategories | .transactionActive | .transactionInactive | .cacheBroken => false
  | _ => true

/-- The line about a failure. -/
def errorLine (f : Failure) : String :=
  "Error: " ++ f.message ++ "\n"

namespace DeskWork

/-- Work on the store. -/
def onStore {α : Type} (w : Work α) : DeskWork α :=
  ExceptT.mk fun d =>
    let (r, store) := w.runOn d.store
    (r, { d with store := store })

/-- Prints a line. -/
def print (line : String) : DeskWork Unit :=
  modify fun d => { d with printed := d.printed ++ line ++ "\n" }

/-- Prints a line about an error. -/
def report (line : String) : DeskWork Unit :=
  modify fun d => { d with reported := d.reported ++ line ++ "\n" }

/-- Writes a file. -/
def writeFile (path text : String) : DeskWork Unit :=
  modify fun d => { d with files := d.files.put path text }

/-- Prints some lines. -/
def printAll (lines : List String) : DeskWork Unit :=
  modify fun d => { d with printed := d.printed ++ String.join (lines.map (· ++ "\n")) }

end DeskWork

open DeskWork

/-- Who asks, as a viewer. -/
def Requester.viewer (who : Requester) : Work Viewer := do
  let id ← match who.user with
    | some name => if name.isEmpty then pure none else Store.findUser name
    | none => pure none
  return ⟨id, who.user, who.isModerator, who.safeMode, who.hideDeleted, none⟩

/-- Prints the posts that a query selects. -/
def runSearch (config : Config) (who : Requester) (query : String) (limit offset : Int) :
    DeskWork Nat := do
  let ids ← onStore do
    let viewer ← who.viewer
    (Searcher.search config viewer query (some limit) offset).onStore
  printAll (ids.map toString)
  return 0

/-- Prints the number of posts that a query selects, which is remembered in the store. -/
def runCount (config : Config) (who : Requester) (query : String) : DeskWork Nat := do
  let count ← onStore do
    let viewer ← who.viewer
    (Searcher.fastCount config viewer query).onStoreCounting ⟨.table, (Moment.ofEpoch 0).wall⟩
  print (toString count)
  return 0

/-- Prints the plan of a query and the statement that it is written as. -/
def runExplain (config : Config) (who : Requester) (query : String) (limit : Option Int) :
    DeskWork Nat := do
  let plan ← onStore do
    let viewer ← who.viewer
    (Searcher.compile config viewer query).onStore
  let statement ← onStore (Work.lift (plan.selectStatement limit 0))
  print (plan.explanation.render Json.Layout.lines)
  print statement.text
  print ((Json.list (statement.params.map Value.toJson)).render Json.Layout.oneLine)
  return 0

/-- Makes the posts of a fixture. -/
def runImport (input : String) : DeskWork Nat := do
  let path := tidyPath input
  let text := (← get).files.find? path
  let count ← onStore (Fixture.importFile path text)
  print ("Imported " ++ toString count ++ " posts from " ++ path)
  return 0

/-- Writes the tables of a preview into a directory. -/
def runPreview (update : Bulk.Update) (directory : String) : DeskWork Unit := do
  let tags ← onStore update.affected
  let affectedPath := joinPath directory "affected_tags.csv"
  let summaryPath := joinPath directory "summary.csv"
  if let some text := Bulk.affectedTable? tags then writeFile affectedPath text
  writeFile summaryPath (← onStore (update.summary tags.length))
  print ("affected_tags: " ++ if tags.isEmpty then "(none)" else affectedPath)
  print ("summary: " ++ summaryPath)

/-- The line about a job. -/
def jobLine (job : Job) : String :=
  "mass update " ++ job.query ++ " -> " ++ job.replacement

/-- Does some jobs one after the other. -/
def runJobs (config : Config) : List Job → DeskWork Unit
  | [] => return ()
  | job :: rest => do
    let count ← onStore (Bulk.perform config job).onStore
    print (jobLine job ++ ": " ++ toString count ++ " posts")
    runJobs config rest

/-- The line about a command that was applied. -/
def mutationLine (m : Bulk.Mutation) : String :=
  "line " ++ toString m.command.lineNumber ++ ": " ++ m.command.command.describe ++ " (posts=" ++
    toString m.postCount ++ ")"

/-- Applies a bulk update and does or lists the jobs that come of it. -/
def runUpdate (update : Bulk.Update) (request : BulkRequest) : DeskWork Nat := do
  let outcome ← onStore do
    let viewer ← (Requester.mk request.user false false false).viewer
    update.process viewer
  match outcome with
  | .failure cause command =>
    report (Bulk.Outcome.failureMessage cause command)
    return 1
  | .success mutations =>
    printAll (mutations.map mutationLine)
    let jobs := (← get).store.queue
    if request.runsJobs then runJobs update.config jobs
    else printAll (jobs.map fun job => "queued " ++ jobLine job)
    return 0

/-- Validates, estimates, previews or applies a bulk update. -/
def runBulk (config : Config) (request : BulkRequest) (script : String) : DeskWork Nat := do
  let update : Bulk.Update :=
    ⟨script, request.forumTopicId, request.renamesPages, !request.checksSecondary, config⟩
  if let some directory := request.previewDir then runPreview update directory
  if request.estimates then
    print ("Estimated posts to update: " ++ toString (← onStore update.estimate))
  if request.validatesOnly then
    onStore update.validate
    let commands ← onStore (Work.lift update.commands)
    print ("Script is valid: " ++ toString commands.length ++ " commands")
    return 0
  else if request.estimates || request.previewDir.isSome then return 0
  else runUpdate update request

/-- What an action does, given the text of the script of a bulk update. -/
def Action.run (config : Config) (db script : String) : Action → DeskWork Nat
  | .init => do
    print ("Initialized database: " ++ db)
    return 0
  | .importPosts input => runImport input
  | .search who query limit offset => runSearch config who query limit offset
  | .count who query => runCount config who query
  | .explain who query limit => runExplain config who query limit
  | .bulk request => runBulk config request script

/-- The settings of a file. -/
def loadConfig (files : Files) : Option String → Except Failure Config
  | none => .ok Config.standard
  | some path =>
    let path := tidyPath path
    match files.find? path with
    | none => .error (.missingFile (some ("Config file not found: " ++ path)))
    | some text => Config.ofText path text

/-- The text of the script that an action needs. -/
def loadScript (files : Files) : Action → Except Failure String
  | .bulk request =>
    let path := tidyPath request.script
    match files.find? path with
    | none =>
      .error (.missingFile (some ("[Errno 2] No such file or directory: " ++ Text.quoted path)))
    | some text => .ok text
  | _ => .ok ""

/-- Writes the tables of a report into a directory. -/
def writeSheets (directory : String) (sheets : List Health.Sheet) (files : Files) : Files :=
  sheets.foldl (fun files s => files.put (joinPath directory s.fileName) s.text) files

/-- How some work at a store ended, and what it left behind. -/
def atStore (files : Files) (clock : Moment) (db : String) (categories : Categories)
    (work : DeskWork Nat) : Except Failure Nat × Outcome :=
  match files.openStore db categories clock with
  | (.error e, files) => (.error e, ⟨.done, "", "", files⟩)
  | (.ok store, files) =>
    let (r, d) := work.run.run ⟨files, store, "", ""⟩
    (r, ⟨.done, d.printed, d.reported, d.files.closeStore db d.store⟩)

/-- Runs a command; the ending is still open. -/
def Command.attempt (files : Files) (clock : Moment) : Command → Except Failure Nat × Outcome
  | .onStore db config action =>
    let db := tidyPath db
    match loadConfig files config with
    | .error e => (.error e, ⟨.done, "", "", files⟩)
    | .ok config =>
      match loadScript files action with
      | .error e => (.error e, ⟨.done, "", "", files⟩)
      | .ok script => atStore files clock db config.categories (action.run config db script)
  | .health db outDir correctsCounts =>
    let db := tidyPath db
    if (files.find? db).isNone then
      (.error (.missingFile (some ("Database does not exist: " ++ db))), ⟨.done, "", "", files⟩)
    else
      atStore files clock db Categories.standard do
        let sheets ← DeskWork.onStore (Health.check db correctsCounts)
        modify fun d => { d with files := writeSheets outDir sheets d.files }
        print ("Wrote health reports: " ++ tidyPath outDir)
        return 0

/-- Runs a command and tells the user about failures. -/
def Command.run (files : Files) (clock : Moment) (c : Command) : Outcome :=
  match c.attempt files clock with
  | (.ok code, o) => { o with ending := .exit code }
  | (.error e, o) =>
    if isTold e then { o with ending := .exit 1, reported := o.reported ++ errorLine e }
    else { o with ending := .failed e }

/-- Runs a command by itself: a failure ends the program, and success is not told. -/
def Command.runBare (files : Files) (clock : Moment) (c : Command) : Outcome :=
  match c.attempt files clock with
  | (.ok _, o) => o
  | (.error e, o) => { o with ending := .failed e }

/-- The name of the program that does nothing but write reports. -/
def healthProgram : String := "report-relationship-health"

/-- The command that some arguments ask for, and whether it is run by itself. -/
def commandOf : List String → Except Refusal (Command × Bool)
  | [] => .error .usage
  | name :: rest =>
    if name = healthProgram then (Command.ofHealthArguments rest).map (·, true)
    else (Command.ofArguments (name :: rest)).map (·, false)

/-- Runs the program on some arguments. -/
def run (files : Files) (clock : Moment) (args : List String) : Outcome :=
  match commandOf args with
  | .error why => ⟨.refused why, "", "", files⟩
  | .ok (c, true) => c.runBare files clock
  | .ok (c, false) => c.run files clock

end Imageboard.CommandLine
