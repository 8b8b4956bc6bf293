import Imageboard.Proofs.Relationship.Carrying
import Imageboard.Proofs.Store.Attaining

/-!
# Changes of relationships that are sure to be accepted

A change of relationships is accepted if each changed record passes its check. Where the records obey
the rules of the store, this is so for a rejection, for putting an alias of a name without one in
force, for retargeting aliases, and for each step of moving implications, which looks for a twin
first.
-/

namespace Imageboard

namespace Contents

variable {c : Contents} {kind : RelationshipKind} {p : Relationship → Bool}
  {f : Relationship → Relationship} {rs done : List Relationship} {r : Relationship}

/-- A record that is not to itself and that no other excludes passes its check. -/
theorem checkRelationship_of_free (hproper : r.antecedent ≠ r.consequent)
    (hfree : ∀ q ∈ rs, clashes kind r q = false) : checkRelationship kind rs r = .ok () := by
  have hnone : rs.any (clashes kind r) = false :=
    List.any_eq_false.2 fun q hq => by simp [hfree q hq]
  rw [checkRelationship, if_neg hproper, hnone]
  rfl

/-- Changes of which each passes its check, whatever was changed before, are all made. -/
theorem updateRelationships_of_free
    (hproper : ∀ r ∈ rs, p r → (f r).antecedent ≠ (f r).consequent)
    (hdone : ∀ r ∈ rs, p r → ∀ q ∈ done, clashes kind (f r) q = false)
    (hrest : ∀ r ∈ rs, p r → ∀ q ∈ rs,
      clashes kind (f r) q = false ∧ (p q → clashes kind (f r) (f q) = false)) :
    updateRelationships kind p f done rs = .ok (done ++ rs.map fun r => if p r then f r else r) := by
  induction rs generalizing done with
  | nil => simp [updateRelationships]
  | cons r rest ih =>
    simp only [List.forall_mem_cons] at hproper hdone hrest
    rw [updateRelationships]
    by_cases hp : p r = true
    · have hfree : ∀ q ∈ done ++ rest, clashes kind (f r) q = false := by
        intro q hq
        rcases List.mem_append.1 hq with hq | hq
        · exact hdone.1 hp q hq
        · exact ((hrest.1 hp).2 q hq).1
      rw [if_pos hp, checkRelationship_of_free (hproper.1 hp) hfree]
      dsimp only
      rw [ih hproper.2 ?_ fun s hs hps => (hrest.2 s hs hps).2]
      · simp [hp]
      · intro s hs hps q hq
        rcases List.mem_append.1 hq with hq | hq
        · exact hdone.2 s hs hps q hq
        · obtain rfl := List.mem_singleton.1 hq
          exact (hrest.2 s hs hps).1.2 hp
    · rw [if_neg hp, ih hproper.2 ?_ fun s hs hps => (hrest.2 s hs hps).2]
      · simp [hp]
      · intro s hs hps q hq
        rcases List.mem_append.1 hq with hq | hq
        · exact hdone.2 s hs hps q hq
        · obtain rfl := List.mem_singleton.1 hq
          exact (hrest.2 s hs hps).1.1

/-- An edit of which each change passes its check is accepted. -/
theorem editRelationships_of_free
    (hproper : ∀ r ∈ c.relationships kind, p r → (f r).antecedent ≠ (f r).consequent)
    (hfree : ∀ r ∈ c.relationships kind, p r → ∀ q ∈ c.relationships kind,
      clashes kind (f r) q = false ∧ (p q → clashes kind (f r) (f q) = false)) :
    ∃ n, c.editRelationships kind p f = .ok (n, c.mapRelationships kind p f) := by
  have hdone : ∀ r ∈ c.relationships kind, p r → ∀ q ∈ ([] : List Relationship),
      clashes kind (f r) q = false := by
    simp
  refine ⟨((c.relationships kind).countP p : Nat), ?_⟩
  rw [editRelationships, updateRelationships_of_free hproper hdone hfree]
  rfl

/-- Records with one id do not exclude each other. -/
theorem clashes_of_id {q r : Relationship} (hid : q.id = r.id) : clashes kind q r = false := by
  simp [clashes, hid]

/-- A change of one record that passes its check is accepted. -/
theorem editRelationships_of_id (h : Lawful kind (c.relationships kind))
    (hr : r ∈ c.relationships kind) (hid : ∀ q, (f q).id = q.id)
    (hproper : (f r).antecedent ≠ (f r).consequent)
    (hfree : ∀ q ∈ c.relationships kind, clashes kind (f r) q = false) :
    ∃ n, c.editRelationships kind (·.id = r.id) f =
      .ok (n, c.mapRelationships kind (·.id = r.id) f) := by
  apply editRelationships_of_free
  · intro s hs hsid
    obtain rfl := h.eq_of_id hs hr (by simpa using hsid)
    exact hproper
  · intro s hs hsid q hq
    obtain rfl := h.eq_of_id hs hr (by simpa using hsid)
    refine ⟨hfree q hq, fun hqid => clashes_of_id ?_⟩
    rw [hid, hid]
    exact (of_decide_eq_true hqid).symm

/-- There is no twin exactly if no record has the names and the status. -/
theorem findRelationship?_eq_none_iff {antecedent consequent status : String} :
    c.findRelationship? kind antecedent consequent status = none ↔
      ∀ q ∈ c.relationships kind,
        ¬ (q.antecedent = antecedent ∧ q.consequent = consequent ∧ q.status.name = status) := by
  simp [findRelationship?, latest?_eq_none_iff]

/-- Contents that differ in relationships of one kind only. -/
def Beside (kind : RelationshipKind) (c d : Contents) : Prop :=
  ∃ rs, d = c.withRelationships kind rs

/-- What is beside something beside the contents is beside these. -/
theorem Beside.trans {b d : Contents} (h : Beside kind b c) (h' : Beside kind c d) :
    Beside kind b d := by
  obtain ⟨rs, rfl⟩ := h
  obtain ⟨rs', rfl⟩ := h'
  exact ⟨rs', by cases kind <;> rfl⟩

end Contents

namespace Store

open Work Contents

variable {s₀ : Store} {c : Contents} {kind : RelationshipKind} {r : Relationship}
  {oldName newName : String}

/-- Moving to a new alias generation leaves the contents as they are. -/
theorem attains_bumpAliasesFor (kind : RelationshipKind) :
    Attains s₀ c (bumpAliasesFor kind) fun _ d => d = c := by
  rintro s - rfl
  cases kind
  · exact ⟨⟨⟩, _, rfl, rfl, rfl⟩
  · exact ⟨⟨⟩, s, rfl, rfl, rfl⟩

/-- A record gets a status in which no other record excludes it. -/
theorem attains_setRelationshipStatus {status : String} {st : Status} {approverId : Option Int}
    (hwhole : c.missing = []) (h : Lawful kind (c.relationships kind))
    (hr : r ∈ c.relationships kind) (hid : (Value.integer r.id).fits)
    (happrover : (Value.ofInteger? approverId).fits) (hstatus : Status.named? status = some st)
    (hfree : ∀ q ∈ c.relationships kind, clashes kind { r with status := st } q = false) :
    Attains s₀ c (setRelationshipStatus kind r.id status approverId) fun _ d =>
      ∃ f, Relationship.Settles st f ∧ Lawful kind (d.relationships kind) ∧
        d = c.mapRelationships kind (·.id = r.id) f := by
  refine attains_get.bind ?_
  rintro s d ⟨-, rfl⟩
  have hfits : [Value.ofInteger? approverId, Value.integer r.id].all Value.fits := by
    simp [happrover, hid]
  have hthere : (d.relationships kind).any (·.id = r.id) := List.any_eq_true.2 ⟨r, hr, by simp⟩
  let settle (q : Relationship) : Relationship :=
    { q with status := st, approverId := approverId.or q.approverId, updatedAt := s.stamp }
  have hsettles : Relationship.Settles st settle :=
    ⟨fun _ => rfl, fun _ => rfl, fun _ => rfl, fun _ => rfl⟩
  obtain ⟨n, hedited⟩ := editRelationships_of_id h hr hsettles.id (h.proper r hr) fun q hq => hfree q hq
  refine (attains_write (a := n) (d := d.mapRelationships kind (·.id = r.id) settle) hwhole hfits
    ?_).bind ?_
  · simp only [if_pos hthere, hstatus]
    exact hedited
  · rintro n e ⟨-, rfl⟩
    refine (attains_bumpAliasesFor kind).imp ?_
    rintro ⟨⟩ e rfl
    exact ⟨settle, hsettles, (relationshipKeeps_lawful kind kind).edit h hedited hsettles.id, rfl⟩

/-- A record that is rejected excludes no other. -/
theorem clashes_rejected (q : Relationship) :
    clashes kind { r with status := .rejected } q = false := by
  simp [clashes]

/-- Aliases that point to one name come to point to another, which is not that of the alias. -/
theorem attains_retargetAliases (hwhole : c.missing = []) (h : Lawful .alias c.aliases) :
    Attains s₀ c (retargetAliases oldName newName) fun _ d => Lawful .alias d.aliases ∧
      d = c.mapRelationships .alias
        (fun r => r.consequent = oldName && r.status = .active && r.antecedent ≠ newName)
        fun r => { r with consequent := newName, updatedAt := s₀.stamp } := by
  refine attains_get.bind ?_
  rintro s d ⟨hs, rfl⟩
  -- Aliases exclude each other by their antecedents, which stay as they are.
  have hkeyed : ∀ q ∈ d.aliases, ∀ r ∈ d.aliases, clashes .alias q r = false := by
    intro q hq r hr
    by_cases heq : q = r
    · exact clashes_of_id (heq ▸ rfl)
    · exact h.keyed.forall hq hr heq
  obtain ⟨n, hedited⟩ : ∃ n, d.editRelationships .alias
      (fun r => r.consequent = oldName && r.status = .active && r.antecedent ≠ newName)
      (fun r => { r with consequent := newName, updatedAt := s₀.stamp }) = .ok (n, _) := by
    apply editRelationships_of_free
    · intro r _ hp
      simp only [Bool.and_eq_true, decide_eq_true_eq] at hp
      exact hp.2
    · intro r hr _ q hq
      have hclash := hkeyed r hr q hq
      simp only [clashes, decide_true, Bool.true_or, Bool.and_true] at hclash ⊢
      exact ⟨hclash, fun _ => hclash⟩
  rw [hs.stamp]
  refine (attains_write hwhole rfl hedited).bind ?_
  rintro n e ⟨-, rfl⟩
  refine (attains_bumpAliasesFor .alias).bind ?_
  rintro ⟨⟩ e rfl
  exact attains_pure
    ⟨(relationshipKeeps_lawful .alias .alias).edit h hedited fun _ => rfl, rfl⟩

/-- A record is renamed if its new names are two and no record in force has both. -/
theorem attains_renameRelationship {antecedent consequent : String} (hwhole : c.missing = [])
    (h : Lawful kind (c.relationships kind)) (hr : r ∈ c.relationships kind)
    (hid : (Value.integer r.id).fits) (hne : antecedent ≠ consequent)
    (hfree : ∀ q ∈ c.relationships kind,
      clashes kind { r with antecedent := antecedent, consequent := consequent } q = false)
    (stamp : Value) :
    Attains s₀ c (write [kind.table] [.integer r.id] fun c =>
        c.editRelationships kind (·.id = r.id) fun q =>
          { q with antecedent := antecedent, consequent := consequent, updatedAt := stamp })
      fun _ d => ∃ f, Relationship.Renames antecedent consequent f ∧
        Lawful kind (d.relationships kind) ∧ d = c.mapRelationships kind (·.id = r.id) f := by
  let rename (q : Relationship) : Relationship :=
    { q with antecedent := antecedent, consequent := consequent, updatedAt := stamp }
  have hrenames : Relationship.Renames antecedent consequent rename :=
    ⟨fun _ => rfl, fun _ => rfl, fun _ => rfl, fun _ => rfl⟩
  have hfits : [Value.integer r.id].all Value.fits := by
    simp [hid]
  obtain ⟨n, hedited⟩ := editRelationships_of_id (f := rename) h hr hrenames.id hne hfree
  refine (attains_write hwhole hfits hedited).imp ?_
  rintro n e ⟨-, rfl⟩
  exact ⟨rename, hrenames, (relationshipKeeps_lawful kind kind).edit h hedited hrenames.id, rfl⟩

/-- Some different implications in force are moved one after the other. -/
theorem attains_moveEach {rs : List Relationship}
    (hfits : ∀ r ∈ rs, (Value.integer r.id).fits) (hwhole : c.missing = [])
    (h : Lawful .implication (c.relationships .implication))
    (hlisted : Carrying oldName newName [] rs c) :
    Attains s₀ c (moveEach oldName newName rs) fun _ d =>
      Lawful .implication (d.relationships .implication) ∧ Beside .implication c d := by
  induction rs generalizing c with
  | nil => exact attains_pure ⟨h, c.relationships .implication, rfl⟩
  | cons r rest ih =>
    obtain ⟨hid, hfits⟩ := List.forall_mem_cons.1 hfits
    obtain ⟨hr, hactive⟩ := hlisted.present r List.mem_cons_self
    -- Whatever is done to the record, the others can be moved afterwards.
    have hnext (f : Relationship → Relationship) (hfid : ∀ q, (f q).id = q.id)
        (hlawful : Lawful .implication
          ((c.mapRelationships .implication (·.id = r.id) f).relationships .implication)) :
        Attains s₀ (c.mapRelationships .implication (·.id = r.id) f) (moveEach oldName newName rest)
          fun _ d => Lawful .implication (d.relationships .implication) ∧ Beside .implication c d := by
      refine (ih hfits (by exact hwhole) hlawful (hlisted.edit hfid (by simp))).imp ?_
      exact fun _ d hd => ⟨hd.1, Beside.trans ⟨_, rfl⟩ hd.2⟩
    refine Attains.ite (fun _ => ih hfits hwhole h hlisted.skip) fun _ =>
      (attains_read hwhole rfl _).bind ?_
    rintro twin d ⟨htwin, rfl⟩
    refine Attains.ite (fun _ => ?_) fun hmoved => ?_
    · refine (attains_setRelationshipStatus hwhole h hr hid rfl rfl
        fun q _ => clashes_rejected q).bind ?_
      rintro ⟨⟩ e ⟨f, hf, hlawful, rfl⟩
      exact hnext f hf.id hlawful
    · obtain ⟨hproper, hnotwin⟩ := not_or.1 hmoved
      have hnone : d.findRelationship? .implication (renamed oldName newName r.antecedent)
          (renamed oldName newName r.consequent) "active" = none := by
        rw [← htwin]
        simpa using hnotwin
      have hfree : ∀ q ∈ d.relationships .implication, clashes .implication { r with
          antecedent := renamed oldName newName r.antecedent
          consequent := renamed oldName newName r.consequent } q = false := by
        intro q hq
        have hother := findRelationship?_eq_none_iff.1 hnone q hq
        by_contra hclash
        simp only [clashes, Bool.not_eq_false, Bool.and_eq_true, Bool.or_eq_true,
          decide_eq_true_eq] at hclash
        obtain ⟨⟨⟨-, hqactive⟩, hantecedent⟩, hconsequent⟩ := hclash
        have hsame := hconsequent.resolve_left (by simp)
        exact hother ⟨hantecedent.symm, hsame.symm, by rw [hqactive]; rfl⟩
      refine attains_get.bind ?_
      rintro s e ⟨-, rfl⟩
      refine (attains_renameRelationship hwhole h hr hid hproper hfree s.stamp).bind ?_
      rintro n e ⟨f, hf, hlawful, rfl⟩
      refine (hnext f hf.id hlawful).bind ?_
      exact fun more d hd => attains_pure hd

/-- The implications in force are moved from one name to another. -/
theorem attains_moveImplications (hne : oldName ≠ newName) (hwhole : c.missing = [])
    (h : Lawful .implication c.implications)
    (hfits : ∀ r ∈ c.implications, (Value.integer r.id).fits) :
    Attains s₀ c (moveImplications oldName newName) fun _ d => Beside .implication c d ∧
      ∀ p, p ∈ d.inForce .implication ↔
        p.1 ≠ p.2 ∧ ∃ q ∈ c.inForce .implication, renamedPair oldName newName q = p := by
  have hmoved : Attains s₀ c (moveImplications oldName newName) fun _ d => Beside .implication c d := by
    refine (attains_read hwhole rfl _).bind ?_
    rintro rs d ⟨rfl, rfl⟩
    have hlisted : Carrying oldName newName _ _ d := carrying_activeRelationships h.ids
    have hnothing : Carrying oldName newName [] (d.activeRelationships .implication) d :=
      ⟨hlisted.ids, hlisted.distinct, hlisted.present, by simp⟩
    have hlistedFits : ∀ r ∈ d.activeRelationships .implication, (Value.integer r.id).fits :=
      fun r hr => hfits r (mem_activeRelationships.1 hr).1
    exact (attains_moveEach hlistedFits hwhole h hnothing).imp fun _ _ hd => hd.2
  exact hmoved.and_leads (leads_moveImplications_iff hne) ⟨h, rfl⟩

end Store

end Imageboard
