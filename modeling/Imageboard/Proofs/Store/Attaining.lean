import Imageboard.Proofs.Store.Leading

/-!
# What work is sure to reach

Work that leads somewhere may fail on the way. Work attains a property from given contents if it
succeeds on them and the property holds of the result and of the contents that it leaves. Nobody else
may hold the store, and the clock and the categories, which work looks at, are those of a given one.
-/

namespace Imageboard

/-- All tables exist if none is missing. -/
theorem Contents.has_of_missing {c : Contents} (hwhole : c.missing = []) (t : Table) : c.has t := by
  simp [has, hwhole]

/-- A store that nobody else holds, with the clock and the categories of another store. -/
structure Store.Resembles (s₀ s : Store) : Prop where
  free : s.heldElsewhere = false
  clock : s.clock = s₀.clock
  categories : s.categories = s₀.categories

/-- A store that nobody else holds resembles itself. -/
theorem Store.Resembles.refl {s : Store} (hfree : s.heldElsewhere = false) : s.Resembles s :=
  ⟨hfree, rfl, rfl⟩

/-- What a store resembles does not depend on its contents. -/
theorem Store.Resembles.of_setting {s₀ s t : Store} (h : s₀.Resembles s)
    (hsetting : t.setting = s.setting) : s₀.Resembles t where
  free := (congrArg Store.heldElsewhere hsetting).trans h.free
  clock := (congrArg Store.clock hsetting).trans h.clock
  categories := (congrArg Store.categories hsetting).trans h.categories

/-- Stores that resemble each other stamp alike. -/
theorem Store.Resembles.stamp {s₀ s : Store} (h : s₀.Resembles s) : s.stamp = s₀.stamp := by
  rw [Store.stamp, Store.stamp, h.clock]

namespace Work

variable {α β : Type} {s₀ : Store} {c d : Contents} {P : Contents → Prop}
  {Q Q' : α → Contents → Prop} {R : β → Contents → Prop}

/-- Success on every store with given contents that resembles a given one, with a property of the
result and of the contents that are left. -/
def Attains (s₀ : Store) (c : Contents) (w : Work α) (Q : α → Contents → Prop) : Prop :=
  ∀ s, s₀.Resembles s → s.contents = c →
    ∃ a t, w.runOn s = (.ok a, t) ∧ t.setting = s.setting ∧ Q a t.contents

/-- A plain result attains what holds of it. -/
theorem attains_pure {a : α} (h : Q a c) : Attains s₀ c (pure a) Q := by
  rintro s - rfl
  exact ⟨a, s, rfl, rfl, h⟩

/-- Looking at the store finds one that resembles the given one. -/
theorem attains_get : Attains s₀ c (get : Work Store) fun s d => s₀.Resembles s ∧ d = c := by
  rintro s hs rfl
  exact ⟨s, s, rfl, rfl, hs, rfl⟩

/-- A sequence attains what its rest attains from wherever the first step may end. -/
theorem Attains.bind {x : Work α} {f : α → Work β} (hx : Attains s₀ c x Q)
    (hf : ∀ a d, Q a d → Attains s₀ d (f a) R) : Attains s₀ c (x >>= f) R := by
  intro s hs hc
  obtain ⟨a, m, hfirst, hsetting, hQ⟩ := hx s hs hc
  obtain ⟨b, t, hrest, hsetting', hR⟩ := hf a m.contents hQ m (hs.of_setting hsetting) rfl
  exact ⟨b, t, (runOn_bind_of_ok hfirst).trans hrest, hsetting'.trans hsetting, hR⟩

/-- A choice attains what the branch that is taken attains. -/
theorem Attains.ite {k : Prop} [Decidable k] {x y : Work α} (hx : k → Attains s₀ c x Q)
    (hy : ¬ k → Attains s₀ c y Q) : Attains s₀ c (if k then x else y) Q := by
  split
  next hk => exact hx hk
  next hk => exact hy hk

/-- What is attained is attained in a weaker form. -/
theorem Attains.imp {w : Work α} (h : Attains s₀ c w Q) (hQ : ∀ a d, Q a d → Q' a d) :
    Attains s₀ c w Q' := by
  intro s hs hc
  obtain ⟨a, t, hrun, hsetting, ha⟩ := h s hs hc
  exact ⟨a, t, hrun, hsetting, hQ a t.contents ha⟩

/-- Work that is sure to succeed also attains what its successes lead to. -/
theorem Attains.and_leads {w : Work α} (h : Attains s₀ c w Q) (hleads : Leads P w Q') (hP : P c) :
    Attains s₀ c w fun a d => Q a d ∧ Q' a d := by
  intro s hs hc
  obtain ⟨a, t, hrun, hsetting, ha⟩ := h s hs hc
  exact ⟨a, t, hrun, hsetting, ha, hleads s a t (hc ▸ hP) hrun⟩

/-- Tables are read if all exist and the values can be taken. -/
theorem attains_read (hwhole : c.missing = []) {ts : List Table} {vs : List Value}
    (hfits : vs.all Value.fits) (f : Contents → α) :
    Attains s₀ c (read ts vs f) fun a d => a = f c ∧ d = c := by
  rintro s - rfl
  have hreadable : Readable ts vs s := ⟨fun t _ => Contents.has_of_missing hwhole t, hfits⟩
  exact ⟨_, s, runOn_read_of_readable hreadable f, rfl, rfl, rfl⟩

/-- A table is changed as the contents allow if all exist and the values can be taken. -/
theorem attains_write (hwhole : c.missing = []) {ts : List Table} {vs : List Value}
    (hfits : vs.all Value.fits) {f : Contents → Except StoreFault (α × Contents)} {a : α}
    (hf : f c = .ok (a, d)) : Attains s₀ c (write ts vs f) fun b e => b = a ∧ e = d := by
  rintro s hs rfl
  have hwritable : Writable ts vs s :=
    ⟨⟨fun t _ => Contents.has_of_missing hwhole t, hfits⟩, hs.free⟩
  refine ⟨a, { s with contents := d }, ?_, rfl, rfl, rfl⟩
  rw [runOn_write_of_writable hwritable, hf]

/-- A table with references is changed as the contents allow if all exist and the values can be
taken. -/
theorem attains_writeReferring (hwhole : c.missing = []) {u : Table} {vs : List Value}
    (hfits : vs.all Value.fits) {f : Contents → Except StoreFault (α × Contents)} {a : α}
    (hf : f c = .ok (a, d)) :
    Attains s₀ c (writeReferring u vs f) fun b e => b = a ∧ e = d := by
  rintro s hs rfl
  have hhas := Contents.has_of_missing hwhole
  have htable : (requireTables [u]).runOn s = (.ok (), s) := by
    rcases runOn_requireTables [u] s with ⟨-, hok⟩ | ⟨hnot, -⟩
    · exact hok
    · exact absurd (fun t _ => hhas t) hnot
  have hparents : (requireParents u).runOn s = (.ok (), s) := by
    rcases runOn_requireParents u s with ⟨-, hok⟩ | ⟨hnot, -⟩
    · exact hok
    · exact absurd (fun t _ => hhas t) hnot
  refine ⟨a, { s with contents := d }, ?_, rfl, rfl, rfl⟩
  rw [writeReferring, runOn_bind_of_ok htable, runOn_bind_of_ok hparents, requireFits, if_pos hfits,
    runOn_bind_of_ok (runOn_pure _ _), runOn_change_of_free hs.free, hf]

/-- A block attains what its body attains. -/
theorem Attains.atomic {w : Work α} (hsetting : ∀ s, (w.runOn s).2.setting = s.setting)
    (h : Attains s₀ c w Q) : Attains s₀ c (atomic w) Q := by
  intro s hs hc
  obtain ⟨a, t, hrun, ht, hQ⟩ := h s.setSavepoint ⟨hs.free, hs.clock, hs.categories⟩ hc
  refine ⟨a, { t with savepoints := s.savepoints }, ?_, ?_, hQ⟩
  · rw [runOn_atomic hsetting, hrun]
  · exact congrArg (fun u : Store => { u with savepoints := s.savepoints }) ht

end Work

end Imageboard
