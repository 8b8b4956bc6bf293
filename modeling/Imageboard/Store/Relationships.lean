import Imageboard.Store.Basic

/-!
# Relationships in the store

Aliases and implications are records on names. At most one alias of a name is in force, and at most
one implication between two names. Each change of an alias moves the store to a new alias
generation, by which answers about aliases that were kept are told to be old.
-/

namespace Imageboard

namespace Contents

/-- Adds a relationship whose status is given by name. -/
def addRelationship (kind : RelationshipKind) (antecedent consequent status : String)
    (forumTopicId creatorId : Option Int) (stamp : Value) (c : Contents) :
    Except StoreFault (Relationship × Contents) :=
  match Status.named? status with
  | none => .error (.check (statusRule kind))
  | some status =>
    let rs := c.relationships kind
    let r : Relationship :=
      ⟨nextId (rs.map (·.id)), antecedent, consequent, status, forumTopicId, creatorId, none, stamp,
        stamp⟩
    (checkRelationship kind rs r).map fun _ => (r, c.withRelationships kind (rs ++ [r]))

/-- Changes the relationships of a kind that satisfy a condition, and counts them. -/
def editRelationships (kind : RelationshipKind) (p : Relationship → Bool)
    (f : Relationship → Relationship) (c : Contents) : Except StoreFault (Int × Contents) :=
  let rs := c.relationships kind
  (updateRelationships kind p f [] rs).map fun edited =>
    (((rs.countP p : Nat) : Int), c.withRelationships kind edited)

/-- The latest relationship of a kind between two names with a status. -/
def findRelationship? (c : Contents) (kind : RelationshipKind)
    (antecedent consequent status : String) : Option Relationship :=
  latest? ((c.relationships kind).filter fun r =>
    r.antecedent = antecedent ∧ r.consequent = consequent ∧ r.status.name = status)

end Contents

namespace Store

open Work

/-- Moves to a new alias generation. -/
def bumpAliases : Work Unit :=
  modify fun s => { s with aliasGeneration := s.aliasGeneration + 1 }

/-- Moves to a new alias generation if aliases were changed. -/
def bumpAliasesFor : RelationshipKind → Work Unit
  | .alias => bumpAliases
  | .implication => return ()

/-- Adds a relationship. -/
def insertRelationship (kind : RelationshipKind) (antecedent consequent status : String)
    (forumTopicId creatorId : Option Int) : Work Relationship := do
  let stamp := (← get).stamp
  let r ← write [kind.table] [.ofInteger? forumTopicId, .ofInteger? creatorId]
    (Contents.addRelationship kind antecedent consequent status forumTopicId creatorId stamp)
  bumpAliasesFor kind
  return r

/-- The latest relationship between two names with a status. -/
def findRelationship (kind : RelationshipKind) (antecedent consequent status : String) :
    Work (Option Relationship) :=
  read [kind.table] [] fun c => c.findRelationship? kind antecedent consequent status

/-- The relationships in force, in order of their ids. -/
def activeRelationships (kind : RelationshipKind) : Work (List Relationship) :=
  read [kind.table] [] fun c => c.activeRelationships kind

/-- Gives a relationship another status, and an approver unless none is given. -/
def setRelationshipStatus (kind : RelationshipKind) (id : Int) (status : String)
    (approverId : Option Int) : Work Unit := do
  let stamp := (← get).stamp
  let _ ← write [kind.table] [.ofInteger? approverId, .integer id] fun c =>
    if (c.relationships kind).any (·.id = id) then
      match Status.named? status with
      | none => .error (.check (Contents.statusRule kind))
      | some status =>
        c.editRelationships kind (·.id = id) fun r =>
          { r with status := status, approverId := approverId.or r.approverId, updatedAt := stamp }
    else .ok (0, c)
  bumpAliasesFor kind

/-- What a name stands for, if an alias of it is in force. -/
def activeAliasConsequent (name : String) : Work (Option String) :=
  read [.aliases] [] fun c => c.aliasOf? name

/-- Lets the aliases in force that point to one name point to another, and counts them. -/
def retargetAliases (oldName newName : String) : Work Int := do
  let stamp := (← get).stamp
  let count ← write [.aliases] [] fun c =>
    c.editRelationships .alias
      (fun r => r.consequent = oldName && r.status = .active && r.antecedent ≠ newName)
      fun r => { r with consequent := newName, updatedAt := stamp }
  bumpAliases
  return count

/-- A name with one name put for another. -/
def renamed (oldName newName name : String) : String :=
  if name = oldName then newName else name

/-- Moves some implications from one name to another, if they are on it, and counts them; one that
would be to itself or is in force already is rejected instead. -/
def moveEach (oldName newName : String) : List Relationship → Work Int
  | [] => return 0
  | r :: rest => do
    if r.antecedent ≠ oldName ∧ r.consequent ≠ oldName then moveEach oldName newName rest
    else
      let antecedent := renamed oldName newName r.antecedent
      let consequent := renamed oldName newName r.consequent
      let twin ← findRelationship .implication antecedent consequent "active"
      if antecedent = consequent ∨ twin.isSome then
        setRelationshipStatus .implication r.id "rejected" none
        moveEach oldName newName rest
      else
        let stamp := (← get).stamp
        let _ ← write [.implications] [.integer r.id] fun c =>
          c.editRelationships .implication (·.id = r.id) fun q =>
            { q with antecedent := antecedent, consequent := consequent, updatedAt := stamp }
        let more ← moveEach oldName newName rest
        return more + 1

/-- Moves the implications in force from one name to another and counts those moved. -/
def moveImplications (oldName newName : String) : Work Int := do
  moveEach oldName newName (← activeRelationships .implication)

end Store

end Imageboard
