import Imageboard.Proofs.Store.Keeping

/-!
# What work leads to

Work leads from a property of the contents to another one if each success on contents with the
former leaves contents with the latter, which may speak of the result too. Nothing is said about
failures, so within a block, which takes back what a failing body did, this is all that matters; and
what others do can only bring about failures.
-/

namespace Imageboard.Work

variable {α β : Type} {P : Contents → Prop} {Q : α → Contents → Prop} {R : β → Contents → Prop}
  {others : Others}

/-- Success on contents with the first property leaves the result and the contents in the second. -/
def Leads (P : Contents → Prop) (w : Work α) (Q : α → Contents → Prop) : Prop :=
  ∀ s a t {others : Others}, P s.contents → w.runOn s others = (.ok a, t) → Q a t.contents

/-- Work leads to what it keeps. -/
theorem Keeps.leads {w : Work α} (h : Keeps P w) : Leads P w fun _ => P := by
  intro s a t others hs hrun
  exact h.contents_of_runOn hs hrun

/-- A plain result leads to what holds of it already. -/
theorem leads_pure (a : α) : Leads (Q a) (pure a) Q := by
  intro s b t others hs hrun
  obtain ⟨rfl, rfl⟩ := runOn_pure_eq_ok.1 hrun
  exact hs

/-- A failure leads to anything. -/
theorem leads_throw (f : Failure) : Leads P (throw f : Work α) Q := by
  intro s a t others _ hrun
  cases congrArg Prod.fst hrun

/-- A sequence leads where its rest leads from what the first step leads to. -/
theorem Leads.bind {x : Work α} {f : α → Work β} (hx : Leads P x Q) (hf : ∀ a, Leads (Q a) (f a) R) :
    Leads P (x >>= f) R := by
  intro s b t others hs hrun
  obtain ⟨a, m, hfirst, hrest⟩ := runOn_bind_eq_ok.1 hrun
  exact hf a m b t (hx s a m hs hfirst) hrest

/-- A choice leads where both branches lead. -/
theorem Leads.ite {c : Prop} [Decidable c] {x y : Work α} (hx : c → Leads P x Q)
    (hy : ¬ c → Leads P y Q) : Leads P (if c then x else y) Q := by
  split
  next hc => exact hx hc
  next hc => exact hy hc

/-- A weaker start and a stronger end are led to as well. -/
theorem Leads.imp {P' : Contents → Prop} {Q' : α → Contents → Prop} {w : Work α} (h : Leads P w Q)
    (hP : ∀ c, P' c → P c) (hQ : ∀ a c, Q a c → Q' a c) : Leads P' w Q' :=
  fun s a t _ hs hrun => hQ a t.contents (h s a t (hP _ hs) hrun)

/-- What work leads to from each of two properties it leads to from both. -/
theorem Leads.and {P' : Contents → Prop} {Q' : α → Contents → Prop} {w : Work α} (h : Leads P w Q)
    (h' : Leads P' w Q') : Leads (fun c => P c ∧ P' c) w fun a c => Q a c ∧ Q' a c :=
  fun s a t _ hs hrun => ⟨h s a t hs.1 hrun, h' s a t hs.2 hrun⟩

/-- Looking at the store leads to what holds already. -/
theorem leads_get : Leads P (get : Work Store) fun _ => P :=
  keeps_get.leads

/-- What is read is what the tables say. -/
theorem leads_read (ts : List Table) (vs : List Value) (f : Contents → α) :
    Leads P (read ts vs f) fun a c => P c ∧ a = f c := by
  intro s a t others hs hrun
  by_cases h : Readable ts vs s
  · rw [runOn_read_of_readable h] at hrun
    obtain ⟨ha, rfl⟩ := Prod.mk.inj hrun
    exact ⟨hs, (Except.ok.inj ha).symm⟩
  · obtain ⟨e, he⟩ := runOn_read_of_not_readable h f
    rw [he] at hrun
    cases congrArg Prod.fst hrun

/-- A statement that succeeds does what it does without others. -/
theorem IsStatement.runOn_eq_ok {w : Work α} (hw : IsStatement w) {s t : Store} {a : α}
    (hrun : w.runOn s others = (.ok a, t)) : w.runOn s = (.ok a, t) := by
  rcases hw s others with halone | ⟨e, he⟩
  · rwa [halone] at hrun
  · rw [he] at hrun
    cases congrArg Prod.fst hrun

/-- A change that succeeds is one that the contents allow. -/
theorem runOn_change_eq_ok {f : Contents → Except StoreFault (α × Contents)} {s t : Store} {a : α}
    (hrun : (change f).runOn s = (.ok a, t)) :
    s.heldElsewhere = false ∧ ∃ d, f s.contents = .ok (a, d) ∧ t = { s with contents := d } := by
  by_cases hheld : s.heldElsewhere = true
  · rw [runOn_change_of_held hheld] at hrun
    cases congrArg Prod.fst hrun
  · have hfree : s.heldElsewhere = false := by simpa using hheld
    rw [runOn_change_of_free hfree] at hrun
    rcases hf : f s.contents with e | ⟨b, d⟩
    · rw [hf] at hrun
      cases congrArg Prod.fst hrun
    · rw [hf] at hrun
      obtain ⟨hb, rfl⟩ := Prod.mk.inj hrun
      obtain rfl := Except.ok.inj hb
      exact ⟨hfree, d, rfl, rfl⟩

/-- A statement that succeeds is one that can be run and that the contents allow. -/
theorem runOn_write_eq_ok {ts : List Table} {vs : List Value}
    {f : Contents → Except StoreFault (α × Contents)} {s t : Store} {a : α}
    (hrun : (write ts vs f).runOn s others = (.ok a, t)) :
    Writable ts vs s ∧ ∃ d, f s.contents = .ok (a, d) ∧ t = { s with contents := d } := by
  have hrun := (isStatement_write ts vs f).runOn_eq_ok hrun
  by_cases h : Writable ts vs s
  · rw [runOn_write_of_writable h, ← runOn_change_of_free h.free] at hrun
    exact ⟨h, (runOn_change_eq_ok hrun).2⟩
  · obtain ⟨e, he⟩ := runOn_write_of_not_writable h f
    rw [he] at hrun
    cases congrArg Prod.fst hrun

/-- A statement that leaves the store alone if it fails without others does so amid them. -/
theorem IsStatement.runOn_eq_error {w : Work α} (hw : IsStatement w) {s t : Store} {e : Failure}
    (halone : ∀ e t, w.runOn s = (.error e, t) → t = s) (hrun : w.runOn s others = (.error e, t)) :
    t = s := by
  rcases hw s others with hsame | ⟨e', he⟩
  · exact halone e t (hsame ▸ hrun)
  · rw [he] at hrun
    exact (congrArg Prod.snd hrun).symm

/-- A statement that fails leaves the store alone. -/
theorem runOn_write_eq_error {ts : List Table} {vs : List Value}
    {f : Contents → Except StoreFault (α × Contents)} {s t : Store} {e : Failure}
    (hrun : (write ts vs f).runOn s others = (.error e, t)) : t = s := by
  refine (isStatement_write ts vs f).runOn_eq_error (fun e t hrun => ?_) hrun
  by_cases h : Writable ts vs s
  · rw [runOn_write_of_writable h] at hrun
    rcases hf : f s.contents with e' | ⟨b, d⟩
    · rw [hf] at hrun
      exact (congrArg Prod.snd hrun).symm
    · rw [hf] at hrun
      cases congrArg Prod.fst hrun
  · obtain ⟨e', he⟩ := runOn_write_of_not_writable h f
    rw [he] at hrun
    exact (congrArg Prod.snd hrun).symm

/-- A statement on a table with references that succeeds found all tables. -/
theorem runOn_writeReferring_eq_ok {u : Table} {vs : List Value}
    {f : Contents → Except StoreFault (α × Contents)} {s t : Store} {a : α}
    (hrun : (writeReferring u vs f).runOn s others = (.ok a, t)) :
    Writable (u :: u.parents) vs s ∧
      ∃ d, f s.contents = .ok (a, d) ∧ t = { s with contents := d } := by
  have hrun := (isStatement_writeReferring u vs f).runOn_eq_ok hrun
  rcases runOn_writeReferring u vs f s with ⟨h, hchange⟩ | ⟨e, he⟩
  · rw [hchange] at hrun
    exact ⟨h, (runOn_change_eq_ok hrun).2⟩
  · rw [he] at hrun
    cases congrArg Prod.fst hrun

/-- A statement on a table with references that fails leaves the store alone. -/
theorem runOn_writeReferring_eq_error {u : Table} {vs : List Value}
    {f : Contents → Except StoreFault (α × Contents)} {s t : Store} {e : Failure}
    (hrun : (writeReferring u vs f).runOn s others = (.error e, t)) : t = s := by
  refine (isStatement_writeReferring u vs f).runOn_eq_error (fun e t hrun => ?_) hrun
  rcases runOn_writeReferring u vs f s with ⟨h, hchange⟩ | ⟨e', he⟩
  · rw [hchange, runOn_change_of_free h.free] at hrun
    rcases hf : f s.contents with e' | ⟨b, d⟩
    · rw [hf] at hrun
      exact (congrArg Prod.snd hrun).symm
    · rw [hf] at hrun
      cases congrArg Prod.fst hrun
  · rw [he] at hrun
    exact (congrArg Prod.snd hrun).symm

/-- A statement leads where its change leads. -/
theorem leads_write {ts : List Table} {vs : List Value}
    {f : Contents → Except StoreFault (α × Contents)}
    (h : ∀ c a d, P c → f c = .ok (a, d) → Q a d) : Leads P (write ts vs f) Q := by
  intro s a t others hs hrun
  obtain ⟨-, d, hd, rfl⟩ := runOn_write_eq_ok hrun
  exact h s.contents a d hs hd

/-- A statement on a table with references leads where its change leads. -/
theorem leads_writeReferring {u : Table} {vs : List Value}
    {f : Contents → Except StoreFault (α × Contents)}
    (h : ∀ c a d, P c → f c = .ok (a, d) → Q a d) : Leads P (writeReferring u vs f) Q := by
  intro s a t others hs hrun
  obtain ⟨-, d, hd, rfl⟩ := runOn_writeReferring_eq_ok hrun
  exact h s.contents a d hs hd

/-- A block keeps what its body leads back to. -/
theorem Leads.keeps_atomic {w : Work α}
    (hsetting : ∀ {others : Others} (s), (w.runOn s others).2.setting = s.setting)
    (h : Leads P w fun _ => P) : Keeps P (atomic w) where
  setting := (Keeps.atomic (P := fun _ => True) ⟨hsetting, fun _ _ => trivial⟩).setting
  contents {others} s hs := by
    rw [runOn_atomic hsetting]
    rcases hrun : w.runOn s.setSavepoint others with ⟨e | a, t⟩
    · exact hs
    · exact h s.setSavepoint a t hs hrun

/-- A block that succeeds keeps the changes of its body. -/
theorem runOn_atomic_eq_ok {w : Work α} (hsetting : ∀ s, (w.runOn s others).2.setting = s.setting)
    {s t : Store} {a : α} (hrun : (atomic w).runOn s others = (.ok a, t)) :
    ∃ m, w.runOn s.setSavepoint others = (.ok a, m) ∧ t = { m with savepoints := s.savepoints } := by
  rw [runOn_atomic hsetting] at hrun
  rcases hbody : w.runOn s.setSavepoint others with ⟨e | b, m⟩
  · rw [hbody] at hrun
    cases hrun
  · rw [hbody] at hrun
    obtain ⟨hb, rfl⟩ := Prod.mk.inj hrun
    obtain rfl := Except.ok.inj hb
    exact ⟨m, rfl, rfl⟩

/-- A block leads where its body leads. -/
theorem Leads.atomic {w : Work α}
    (hsetting : ∀ {others : Others} (s), (w.runOn s others).2.setting = s.setting)
    (h : Leads P w Q) : Leads P (atomic w) Q := by
  intro s a t others hs hrun
  obtain ⟨m, hbody, rfl⟩ := runOn_atomic_eq_ok hsetting hrun
  exact h s.setSavepoint a m hs hbody

/-! ## Work on a store with given categories -/

/-- Success on a store with given categories and contents with the first property leaves the categories, and
the result and the contents in the second property. -/
def LeadsUnder (categories : Categories) (P : Contents → Prop) (w : Work α) (Q : α → Contents → Prop) :
    Prop :=
  ∀ s a t, s.categories = categories → P s.contents → w.runOn s = (.ok a, t) →
    t.categories = categories ∧ Q a t.contents

section Under

variable {categories : Categories}

/-- Where work leads that changes nothing around the contents it leads under any categories. -/
theorem Leads.under {w : Work α} (h : Leads P w Q) (hsetting : ∀ s, (w.runOn s).2.setting = s.setting) :
    LeadsUnder categories P w Q := by
  intro s a t hcategories hs hrun
  have hafter := congrArg Store.categories (hsetting s)
  rw [hrun] at hafter
  exact ⟨hafter.trans hcategories, h s a t hs hrun⟩

/-- Work leads to what it keeps under any categories. -/
theorem Keeps.under {w : Work α} (h : Keeps P w) : LeadsUnder categories P w fun _ => P :=
  h.leads.under h.setting

/-- A statement leads where its change leads. -/
theorem leadsUnder_write {ts : List Table} {vs : List Value}
    {f : Contents → Except StoreFault (α × Contents)}
    (h : ∀ c a d, P c → f c = .ok (a, d) → Q a d) : LeadsUnder categories P (write ts vs f) Q :=
  (leads_write h).under (keeps_write (P := fun _ => True) fun _ _ _ _ _ => trivial).setting

/-- A statement on a table with references leads where its change leads. -/
theorem leadsUnder_writeReferring {u : Table} {vs : List Value}
    {f : Contents → Except StoreFault (α × Contents)}
    (h : ∀ c a d, P c → f c = .ok (a, d) → Q a d) : LeadsUnder categories P (writeReferring u vs f) Q :=
  (leads_writeReferring h).under
    (keeps_writeReferring (P := fun _ => True) fun _ _ _ _ _ => trivial).setting

/-- Looking at the store finds the given categories. -/
theorem leadsUnder_get :
    LeadsUnder categories P (get : Work Store) fun s c => s.categories = categories ∧ P c := by
  rintro s a t hcategories hs ⟨⟩
  exact ⟨hcategories, hcategories, hs⟩

/-- A sequence leads where its rest leads from what the first step leads to. -/
theorem LeadsUnder.bind {x : Work α} {f : α → Work β} (hx : LeadsUnder categories P x Q)
    (hf : ∀ a, LeadsUnder categories (Q a) (f a) R) : LeadsUnder categories P (x >>= f) R := by
  intro s b t hcategories hs hrun
  obtain ⟨a, m, hfirst, hrest⟩ := runOn_bind_eq_ok.1 hrun
  obtain ⟨hm, hQ⟩ := hx s a m hcategories hs hfirst
  exact hf a m b t hm hQ hrest

/-- A choice leads where both branches lead. -/
theorem LeadsUnder.ite {c : Prop} [Decidable c] {x y : Work α} (hx : LeadsUnder categories P x Q)
    (hy : LeadsUnder categories P y Q) : LeadsUnder categories P (if c then x else y) Q := by
  split
  · exact hx
  · exact hy

/-- What work leads to from each of two properties it leads to from both. -/
theorem LeadsUnder.and {P' : Contents → Prop} {Q' : α → Contents → Prop} {w : Work α}
    (h : LeadsUnder categories P w Q) (h' : LeadsUnder categories P' w Q') :
    LeadsUnder categories (fun c => P c ∧ P' c) w fun a c => Q a c ∧ Q' a c := by
  intro s a t hcategories hs hrun
  obtain ⟨hafter, ha⟩ := h s a t hcategories hs.1 hrun
  exact ⟨hafter, ha, (h' s a t hcategories hs.2 hrun).2⟩

/-- A block leads where its body leads. -/
theorem LeadsUnder.atomic {w : Work α} (hsetting : ∀ s, (w.runOn s).2.setting = s.setting)
    (h : LeadsUnder categories P w Q) : LeadsUnder categories P (atomic w) Q := by
  intro s a t hcategories hs hrun
  obtain ⟨m, hbody, rfl⟩ := runOn_atomic_eq_ok hsetting hrun
  exact h s.setSavepoint a m hcategories hs hbody

end Under

end Imageboard.Work
