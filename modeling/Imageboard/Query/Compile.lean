import Imageboard.Config
import Imageboard.Query.Metatag

/-!
# Compiling a query

A query is compiled into a plan: repeated terms count once, the number of tags is checked, aliases
are replaced by the names they stand for, metatags contribute predicates, and the filters of the
viewer are added last. Names are resolved by a function, so that compiling does not look at a store;
`aliasLookups` says which names a compilation asks for.
-/

namespace Imageboard.Query

open Text

/-- The orders by a column, with the direction as an ending. -/
def columnOrders : List OrderKey :=
  [.score, .favcount, .change, .mpixels, .filesize, .tagcount]

/-- Removes an ending. -/
def dropEnding? (ending text : String) : Option String :=
  if ending.toList.isSuffixOf text.toList then
    some (String.ofList (text.toList.take (text.length - ending.length)))
  else none

/-- Splits the direction off an order; without one it is descending. -/
def splitDirection (value : String) : String × Direction :=
  match dropEnding? "_asc" value with
  | some key => (key, .asc)
  | none =>
    match dropEnding? "_desc" value with
    | some key => (key, .desc)
    | none => (value, .desc)

/-- The order that a value stands for. -/
def Order.ofText? (categories : Categories) (value : String) : Option Order :=
  match lowerString value with
  | "id" | "id_asc" => some ⟨.id, .asc, []⟩
  | "id_desc" => some ⟨.id, .desc, []⟩
  | "portrait" => some ⟨.ratio, .asc, []⟩
  | "landscape" => some ⟨.ratio, .desc, []⟩
  | "random" => some ⟨.random, .asc, []⟩
  | "custom" => some ⟨.custom, .asc, []⟩
  | text =>
    let (key, direction) := splitDirection text
    match columnOrders.find? (·.name = key) with
    | some o => some ⟨o, direction, []⟩
    | none =>
      (categories.toList.find? (·.countMetatag = key)).map fun c =>
        ⟨.categoryTags key, direction, [.integer c.code]⟩

/-- The distinct terms of a query. -/
def terms (config : Config) (query : String) : Except Failure (List Term) :=
  (tokenize query).map (distinctTerms (Registry.ofCategories config.categories).names)

/-- Whether a term counts toward the limit of tags. -/
def countsTowardLimit (config : Config) (t : Term) : Bool :=
  (t.isTag || (config.countMetatagsAgainstLimit && t.kind = .metatag)) &&
    !config.isUnlimited t.raw

/-- Refuses more tags than allowed. -/
def checkTagLimit (config : Config) (ts : List Term) : Except Failure Unit :=
  if ((ts.filter (countsTowardLimit config)).length : Int) > config.tagQueryLimit then
    .error (.tooManyTags config.tagQueryLimit)
  else .ok ()

/-- The distinct terms of a query that has not too many tags. -/
def checkedTerms (config : Config) (query : String) : Except Failure (List Term) :=
  match terms config query with
  | .error e => .error e
  | .ok ts => (checkTagLimit config ts).map fun _ => ts

/-- A plan in the making. -/
structure Draft where
  required : List TagFilter
  negated : List TagFilter
  optional : List TagFilter
  conditions : List Condition
  order : Option Order
  limit : Option Int
  showsDeleted : Bool

namespace Draft

/-- The draft before the first term. -/
def empty : Draft := ⟨[], [], [], [], none, none, false⟩

/-- Adds an item that is not there yet. -/
def insertNew {α : Type} [BEq α] (xs : List α) (x : α) : List α :=
  if xs.contains x then xs else xs ++ [x]

/-- Adds a tag filter with a polarity. -/
def addFilter (d : Draft) (polarity : Polarity) (f : TagFilter) : Draft :=
  match polarity with
  | .required => { d with required := Draft.insertNew d.required f }
  | .negated => { d with negated := Draft.insertNew d.negated f }
  | .optional => { d with optional := Draft.insertNew d.optional f }

/-- Adds what a metatag contributes; a negated one keeps its predicate, negated, and its limit. -/
def addEffect (d : Draft) (negated : Bool) (effect : Effect) : Draft :=
  { d with
    conditions := d.conditions ++ (effect.predicate.map fun p => ⟨p, negated⟩).toList
    order := if negated then d.order else effect.order.or d.order
    limit := effect.limit.or d.limit }

/-- Adds a term. -/
def addTerm (config : Config) (resolve : String → String) (viewer : Viewer) (now : Moment)
    (d : Draft) (t : Term) : Except Failure Draft :=
  let value := t.value.getD ""
  match t.kind with
  | .order => .ok { d with order := Order.ofText? config.categories value }
  | .metatag =>
    match (Registry.ofCategories config.categories).evaluate viewer now t.name value with
    | .error e => .error e
    | .ok effect =>
      let d := d.addEffect (t.polarity = .negated) effect
      .ok { d with
        showsDeleted := d.showsDeleted ||
          (t.name = "status" && Query.showsDeleted (lowerString value)) }
  | .wildcard => .ok (d.addFilter t.polarity ⟨t.name, true⟩)
  | .tag => .ok (d.addFilter t.polarity ⟨resolve t.name, false⟩)

/-- Adds terms in order. -/
def addTerms (config : Config) (resolve : String → String) (viewer : Viewer) (now : Moment) :
    Draft → List Term → Except Failure Draft
  | d, [] => .ok d
  | d, t :: rest =>
    match addTerm config resolve viewer now d t with
    | .error e => .error e
    | .ok d => addTerms config resolve viewer now d rest

/-- The conditions that the filters of the viewer add. -/
def viewerConditions (viewer : Viewer) (showsDeleted : Bool) : List Condition :=
  (if viewer.safeMode then [⟨.range .rating (.eq (.text "s")) none, false⟩] else []) ++
    (if viewer.hideDeleted && !showsDeleted then [⟨.flags [.deleted] false .all, false⟩] else [])

/-- The list of ids of a condition that is such a list. -/
def idList? : Condition → Option (List Value)
  | ⟨.range .id (.among ids) _, false⟩ => some ids
  | _ => none

/-- The order of the plan: a custom order takes its sequence from the last list of ids. -/
def finalOrder (order : Option Order) (conditions : List Condition) : Order :=
  match order with
  | none => .standard
  | some o =>
    if o.key = .custom then
      match conditions.reverse.findSome? idList? with
      | some ids => ⟨.custom, .asc, ids⟩
      | none => .standard
    else o

/-- The finished plan. -/
def finish (d : Draft) (viewer : Viewer) (query : String) : Plan :=
  let conditions := d.conditions ++ viewerConditions viewer d.showsDeleted
  { required := d.required
    negated := d.negated
    optional := d.optional.filter fun f => !d.required.contains f
    conditions := conditions
    order := finalOrder d.order conditions
    limit := d.limit
    query := query }

end Draft

/-- The moment that ages are counted from. -/
def referenceMoment (viewer : Viewer) (clock : Moment) : Moment :=
  viewer.now.getD clock

/-- The plan for checked terms. -/
def planOf (config : Config) (resolve : String → String) (viewer : Viewer) (clock : Moment)
    (query : String) (ts : List Term) : Except Failure Plan :=
  (Draft.addTerms config resolve viewer (referenceMoment viewer clock) Draft.empty ts).map
    fun d => d.finish viewer query

/-- The plan of a query. -/
def compile (config : Config) (resolve : String → String) (viewer : Viewer) (clock : Moment)
    (query : String) : Except Failure Plan :=
  match checkedTerms config query with
  | .error e => .error e
  | .ok ts => planOf config resolve viewer clock query ts

/-- The names that planning asks to resolve, in order, up to the first faulty metatag. -/
def aliasLookups (config : Config) (viewer : Viewer) (clock : Moment) : List Term → List String
  | [] => []
  | t :: rest =>
    match t.kind with
    | .tag => t.name :: aliasLookups config viewer clock rest
    | .metatag =>
      match (Registry.ofCategories config.categories).evaluate viewer
          (referenceMoment viewer clock) t.name (t.value.getD "") with
      | .ok _ => aliasLookups config viewer clock rest
      | .error _ => []
    | _ => aliasLookups config viewer clock rest

end Imageboard.Query
