import Imageboard.Config
import Imageboard.Json.Reader

/-!
# Configuration files

Settings are read from a structured object, key by key in its order; the first faulty key decides
the failure, and the settings as a whole are checked last.
-/

namespace Imageboard.Config

/-- A whole number for a category code: a number is cut to its integer part and text is read. -/
def codeOfJson : Json → Except Failure Int
  | .integer n => .ok n
  | .bool b => .ok (if b then 1 else 0)
  | .real x =>
    match x.truncate? with
    | some n => .ok n
    | none => .error (if x = .nan then .malformedNumber else .overflow)
  | .text s =>
    match readInteger? s with
    | some n => .ok n
    | none => .error .malformedNumber
  | _ => .error .wrongType

/-- The further names of a category. -/
def aliasesOfJson : Json → Except Failure (List String)
  | .list items => .ok (items.map (·.plainText))
  | .text s => .ok (s.toList.map fun c => String.ofList [c])
  | .object fields => .ok (fields.map (·.1))
  | _ => .error .wrongType

/-- Reads one category. -/
def categoryOfJson (entry : Json) : Except Failure Category :=
  let missing (key : String) : Failure :=
    .badValue ("Category entry is missing key " ++ Text.quoted key ++ ": " ++ entry.describe)
  match entry with
  | .object _ =>
    match entry.get? "code" with
    | none => .error (missing "code")
    | some code =>
      match codeOfJson code with
      | .error e => .error e
      | .ok code =>
        match entry.get? "name" with
        | none => .error (missing "name")
        | some name =>
          let short := (entry.get? "short_name").getD name
          match aliasesOfJson ((entry.get? "aliases").getD (.list [])) with
          | .error e => .error e
          | .ok aliases =>
            .ok ⟨code, Text.lowerString name.plainText, Text.lowerString short.plainText,
              aliases.map Text.lowerString⟩
  | _ =>
    .error (.badValue ("Invalid category entry: expected dict, got <class '" ++
      entry.typeName ++ "'>"))

/-- Reads a list of categories. -/
def categoriesOfJson : Json → Except Failure Categories
  | .list items =>
    match items.mapM categoryOfJson with
    | .error e => .error e
    | .ok cs => Categories.ofList? cs
  | other =>
    .error (.badValue ("categories must be a list, got <class '" ++ other.typeName ++ "'>"))

/-- The failure of a key whose value has the wrong type. -/
def invalidValue (key expected : String) (value : Json) : Failure :=
  .badValue ("Invalid value for '" ++ key ++ "': expected " ++ expected ++ ", got " ++
    value.describe)

/-- Reads a whole number setting. -/
def integerSetting (key : String) : Json → Except Failure Int
  | .integer n => .ok n
  | value => .error (invalidValue key "int" value)

/-- Reads a whole number setting that may be absent. -/
def optionalIntegerSetting (key : String) : Json → Except Failure (Option Int)
  | .integer n => .ok (some n)
  | .null => .ok none
  | value => .error (invalidValue key "int or null" value)

/-- The texts of a list that holds nothing else. -/
def texts? : Json → Option (List String)
  | .list items => items.mapM fun
    | .text s => some s
    | _ => none
  | _ => none

/-- Takes one setting over. -/
def applySetting (c : Config) (key : String) (value : Json) : Except Failure Config :=
  match key with
  | "tag_query_limit" => (integerSetting key value).map fun n => { c with tagQueryLimit := n }
  | "count_cache_min_ttl" =>
    (integerSetting key value).map fun n => { c with countCacheMinTtl := n }
  | "count_cache_max_ttl" =>
    (integerSetting key value).map fun n => { c with countCacheMaxTtl := n }
  | "minimum_alias_post_count" =>
    (integerSetting key value).map fun n => { c with minimumAliasPostCount := n }
  | "blank_search_fast_count" =>
    (optionalIntegerSetting key value).map fun n => { c with blankSearchFastCount := n }
  | "statement_timeout_ms" =>
    (optionalIntegerSetting key value).map fun n => { c with statementTimeoutMs := n }
  | "count_metatags_against_limit" =>
    match value with
    | .bool b => .ok { c with countMetatagsAgainstLimit := b }
    | _ => .error (invalidValue key "bool" value)
  | "unlimited_tag_patterns" =>
    match texts? value with
    | some patterns => .ok { c with unlimitedTagPatterns := patterns.map Text.lowerString }
    | none => .error (.badValue ("Invalid value for '" ++ key ++ "': expected list of strings"))
  | "categories" => (categoriesOfJson value).map fun cs => { c with categories := cs }
  | _ => .error (.badValue ("Unknown config key: '" ++ key ++ "'"))

/-- Takes settings over in order. -/
def applySettings : Config → List (String × Json) → Except Failure Config
  | c, [] => .ok c
  | c, (key, value) :: rest =>
    match applySetting c key value with
    | .error e => .error e
    | .ok c => applySettings c rest

/-- The settings that an object states, the others being the standard ones. -/
def ofFields (fields : List (String × Json)) : Except Failure Config :=
  match applySettings standard fields with
  | .error e => .error e
  | .ok c => c.validate

/-- The settings in the text of a file. -/
def ofText (path text : String) : Except Failure Config :=
  match Json.read text with
  | .error .malformed => .error (.badValue ("Invalid JSON in config file: " ++ path))
  | .error .integerTooLong => .error .malformedNumber
  | .ok (.object fields) => ofFields fields
  | .ok other =>
    .error (.badValue ("Config file must contain a JSON object, got <class '" ++
      other.typeName ++ "'>"))

end Imageboard.Config
