import Imageboard.CommandLine.Arguments

/-!
# Commands

What can be asked for on the command line. The first argument names the command, and the others are
read by its grammar.
-/

namespace Imageboard.CommandLine

/-- Who asks, and under which filters. -/
structure Requester where
  user : Option String
  isModerator : Bool
  safeMode : Bool
  hideDeleted : Bool
  deriving DecidableEq, Repr

/-- A bulk update that is asked for. -/
structure BulkRequest where
  script : String
  user : Option String
  forumTopicId : Option Int
  renamesPages : Bool
  checksSecondary : Bool
  validatesOnly : Bool
  estimates : Bool
  previewDir : Option String
  runsJobs : Bool
  deriving DecidableEq, Repr

/-- What is to be done with a store. -/
inductive Action where
  | init
  | importPosts (input : String)
  | search (who : Requester) (query : String) (limit offset : Int)
  | count (who : Requester) (query : String)
  | explain (who : Requester) (query : String) (limit : Option Int)
  | bulk (request : BulkRequest)
  deriving DecidableEq, Repr

/-- A command. -/
inductive Command where
  /-- An action on the store at a path, under the settings of a file. -/
  | onStore (db : String) (config : Option String) (action : Action)
  /-- A report on the store at a path. -/
  | health (db outDir : String) (correctsCounts : Bool)
  deriving DecidableEq, Repr

/-- An option with a text that is needed. -/
def neededText (name : String) : OptionRule := ⟨name, .text, true⟩

/-- An option with a text. -/
def someText (name : String) : OptionRule := ⟨name, .text, false⟩

/-- An option with an integer. -/
def someInteger (name : String) : OptionRule := ⟨name, .integer, false⟩

/-- A switch. -/
def switch (name : String) : OptionRule := ⟨name, .switch, false⟩

/-- The options of all actions. -/
def storeOptions : List OptionRule := [neededText "--db", someText "--config"]

/-- The options that say who asks. -/
def requesterOptions : List OptionRule :=
  [someText "--user", switch "--moderator", switch "--safe-mode", switch "--hide-deleted"]

/-- The grammar of a report. -/
def healthGrammar : Grammar :=
  ⟨[neededText "--db", neededText "--out-dir", switch "--fix-post-counts"], false⟩

/-- The grammar of bulk updates. -/
def bulkGrammar : Grammar :=
  ⟨storeOptions ++
    [neededText "--script", someText "--user", someInteger "--forum-topic-id",
      switch "--rename-pages", switch "--secondary-validations", switch "--validate-only",
      switch "--estimate", someText "--preview-dir", switch "--run-mass-updates"], false⟩

namespace Arguments

/-- A text that is needed. -/
def text (a : Arguments) (name : String) : String :=
  (a.text? name).getD ""

/-- The plain argument. -/
def query (a : Arguments) : String :=
  a.plain.getD ""

/-- Who asks. -/
def requester (a : Arguments) : Requester :=
  ⟨a.text? "--user", a.has "--moderator", a.has "--safe-mode", a.has "--hide-deleted"⟩

/-- The bulk update that is asked for. -/
def bulkRequest (a : Arguments) : BulkRequest where
  script := a.text "--script"
  user := a.text? "--user"
  forumTopicId := a.integer? "--forum-topic-id"
  renamesPages := a.has "--rename-pages"
  checksSecondary := a.has "--secondary-validations"
  validatesOnly := a.has "--validate-only"
  estimates := a.has "--estimate"
  previewDir := a.text? "--preview-dir"
  runsJobs := a.has "--run-mass-updates"

/-- The command that does something with a store. -/
def toCommand (a : Arguments) (action : Action) : Command :=
  .onStore (a.text "--db") (a.text? "--config") action

end Arguments

namespace Command

/-- The report that some arguments ask for. -/
def ofHealthArguments (args : List String) : Except Refusal Command :=
  (healthGrammar.read args).map fun a =>
    .health (a.text "--db") (a.text "--out-dir") (a.has "--fix-post-counts")

/-- The command with a name that some arguments ask for. -/
def ofName (name : String) (args : List String) : Except Refusal Command :=
  match name with
  | "init" =>
    (Grammar.read ⟨storeOptions, false⟩ args).map fun a => a.toCommand .init
  | "import-posts" =>
    (Grammar.read ⟨storeOptions ++ [neededText "--input"], false⟩ args).map fun a =>
      a.toCommand (.importPosts (a.text "--input"))
  | "search" =>
    (Grammar.read
      ⟨storeOptions ++ requesterOptions ++ [someInteger "--limit", someInteger "--offset"], true⟩
      args).map fun a =>
      a.toCommand (.search a.requester a.query ((a.integer? "--limit").getD 20)
        ((a.integer? "--offset").getD 0))
  | "count" =>
    (Grammar.read ⟨storeOptions ++ requesterOptions, true⟩ args).map fun a =>
      a.toCommand (.count a.requester a.query)
  | "explain" =>
    (Grammar.read ⟨storeOptions ++ requesterOptions ++ [someInteger "--limit"], true⟩ args).map
      fun a => a.toCommand (.explain a.requester a.query (a.integer? "--limit"))
  | "bulk" => (bulkGrammar.read args).map fun a => a.toCommand (.bulk a.bulkRequest)
  | "health" => ofHealthArguments args
  | _ => .error .usage

/-- The grammar of what stands before the name of a command. -/
def mainGrammar : Grammar := ⟨[], false⟩

/-- The command that some arguments ask for; options before its name are wrong, except the one for
help. -/
def ofArguments : List String → Except Refusal Command
  | [] => .error .usage
  | s :: rest =>
    match mainGrammar.reading s with
    | .plain => ofName s rest
    | .option _ none => .error .help
    | .option _ (some _) => .error .usage
    | .endOfOptions | .unknown =>
      match ofArguments rest with
      | .error .help => .error .help
      | _ => .error .usage

/-- The paths of the files that a command reads. -/
def inputs : Command → List String
  | .onStore db config action =>
    db :: config.toList ++ match action with
      | .importPosts input => [input]
      | .bulk request => [request.script]
      | _ => []
  | .health db _ _ => [db]

end Command

end Imageboard.CommandLine
