import Imageboard.Proofs.Store.Keeping

/-!
# Work that comes to the same in two stores

Two stores are alike if their contents differ in nothing but the time stamps that work puts on changed
records, and nothing else differs that work on the contents looks at: neither the clock nor what is open
matters. One piece of work mirrors another if on stores that are alike both succeed or both fail, in the
same way, and leave stores that are alike. The main statements say how this passes from the steps of a
sequence to the sequence, and when it holds of statements.
-/

namespace Imageboard

/-! ## Without time stamps -/

/-- A tag without its time stamps. -/
def Tag.undated (t : Tag) : Tag :=
  { t with createdAt := .null, updatedAt := .null }

/-- A post without the time of its last change. -/
def Post.undated (p : Post) : Post :=
  { p with updatedAt := .null }

/-- A relationship without its time stamps. -/
def Relationship.undated (r : Relationship) : Relationship :=
  { r with createdAt := .null, updatedAt := .null }

/-- A wiki page without the time of its last change. -/
def WikiPage.undated (w : WikiPage) : WikiPage :=
  { w with updatedAt := .null }

/-- An artist without the time of its last change. -/
def Artist.undated (a : Artist) : Artist :=
  { a with updatedAt := .null }

/-- Contents without the time stamps that work puts on records when it makes or changes them. -/
def Contents.undated (c : Contents) : Contents :=
  { c with
    tags := c.tags.map Tag.undated
    posts := c.posts.map Post.undated
    aliases := c.aliases.map Relationship.undated
    implications := c.implications.map Relationship.undated
    wikiPages := c.wikiPages.map WikiPage.undated
    artists := c.artists.map Artist.undated }

/-- Two stores have the same contents up to time stamps, the same categories, and are both held by
somebody else or both not. -/
structure Store.Alike (s t : Store) : Prop where
  contents : s.contents.undated = t.contents.undated
  categories : s.categories = t.categories
  held : s.heldElsewhere = t.heldElsewhere

/-- A store at another time. -/
def Store.atMoment (s : Store) (m : Moment) : Store :=
  { s with clock := m }

namespace Store.Alike

variable {s t u : Store}

/-- A store is like itself. -/
theorem refl (s : Store) : s.Alike s :=
  ⟨rfl, rfl, rfl⟩

/-- A store is like those that are like it. -/
theorem symm (h : s.Alike t) : t.Alike s :=
  ⟨h.contents.symm, h.categories.symm, h.held.symm⟩

/-- Stores that are like the same one are alike. -/
theorem trans (h : s.Alike t) (h' : t.Alike u) : s.Alike u :=
  ⟨h.contents.trans h'.contents, h.categories.trans h'.categories, h.held.trans h'.held⟩

/-- In stores that are alike the same tables exist. -/
theorem has (h : s.Alike t) (table : Table) : s.contents.has table = t.contents.has table := by
  have hmissing : s.contents.missing = t.contents.missing := (congrArg Contents.missing h.contents :)
  rw [Contents.has, Contents.has, hmissing]

/-- Stores that are alike stay so when their contents change alike. -/
theorem withContents (h : s.Alike t) {c d : Contents} (hcd : c.undated = d.undated) :
    Alike { s with contents := c } { t with contents := d } :=
  ⟨hcd, h.categories, h.held⟩

end Store.Alike

namespace Work

variable {α β γ δ : Type} {e : α → γ} {e' : β → δ} {x y : Work α} {f g : α → Work β}

/-- Work comes to the same as other work on stores that are alike: both succeed with results that are
the same for some purpose, or both fail alike, and the stores that they leave are alike. -/
def Mirrors (e : α → γ) (x y : Work α) : Prop :=
  ∀ s t, s.Alike t →
    (x.runOn s).1.map e = (y.runOn t).1.map e ∧ (x.runOn s).2.Alike (y.runOn t).2

/-- Work comes to the same as other work, results included. -/
abbrev MirrorsExactly (x y : Work α) : Prop :=
  Mirrors id x y

/-- Results that are the same for some purpose mirror each other. -/
theorem mirrors_pure {a b : α} (h : e a = e b) : Mirrors e (pure a) (pure b) :=
  fun _ _ hst => ⟨congrArg Except.ok h, hst⟩

/-- A failure mirrors itself. -/
theorem mirrors_throw (f : Failure) : Mirrors e (throw f : Work α) (throw f) :=
  fun _ _ hst => ⟨rfl, hst⟩

/-- What would come after a failure does not matter. -/
theorem mirrors_throw_bind (f : Failure) (k k' : α → Work β) :
    Mirrors e' ((throw f : Work α) >>= k) ((throw f : Work α) >>= k') :=
  fun _ _ hst => ⟨rfl, hst⟩

/-- A plain computation mirrors itself. -/
theorem mirrors_lift (r : Except Failure α) : Mirrors e (lift r) (lift r) :=
  fun _ _ hst => ⟨rfl, hst⟩

/-- A change of what is around the contents mirrors another one. -/
theorem mirrors_modify {f g : Store → Store} (hf : ∀ s, (f s).Alike s) (hg : ∀ s, (g s).Alike s) :
    MirrorsExactly (modify f : Work PUnit) (modify g) :=
  fun s t hst => ⟨rfl, (hf s).trans (hst.trans (hg t).symm)⟩

/-- A sequence mirrors another one if its first step does and its rest does after results that are the
same for the rest. -/
theorem Mirrors.bind (hxy : Mirrors e x y) (hfg : ∀ a b, e a = e b → Mirrors e' (f a) (g b)) :
    Mirrors e' (x >>= f) (y >>= g) := by
  intro s t hst
  obtain ⟨hresult, hafter⟩ := hxy s t hst
  rw [runOn_bind, runOn_bind]
  rcases hx : x.runOn s with ⟨_ | a, m⟩ <;> rcases hy : y.runOn t with ⟨_ | b, n⟩ <;>
    rw [hx, hy] at hresult hafter
  · obtain rfl := Except.error.inj hresult
    exact ⟨rfl, hafter⟩
  · cases hresult
  · cases hresult
  · exact hfg a b (Except.ok.inj hresult) m n hafter

/-- A sequence mirrors another one if its first step does, whatever its result is looked at for, and its
rest does after each result. -/
theorem Mirrors.bindSame (hxy : MirrorsExactly x y) (hfg : ∀ a, Mirrors e' (f a) (g a)) :
    Mirrors e' (x >>= f) (y >>= g) :=
  hxy.bind fun a _ (h : a = _) => h ▸ hfg a

/-- A sequence whose first step finds something or nothing mirrors another one if its first step does
and its rest does in either case. -/
theorem Mirrors.bindOption {x y : Work (Option α)} {f g : Option α → Work β}
    (hxy : Mirrors (Option.map e) x y) (hnone : Mirrors e' (f none) (g none))
    (hsome : ∀ a b, e a = e b → Mirrors e' (f (some a)) (g (some b))) :
    Mirrors e' (x >>= f) (y >>= g) := by
  refine hxy.bind ?_
  rintro (_ | a) (_ | b) h
  · exact hnone
  · cases h
  · cases h
  · exact hsome a b (Option.some.inj h)

/-- What is done after looking at the store mirrors what else is done if it does so for stores that are
alike. -/
theorem Mirrors.getBind {f g : Store → Work β} (h : ∀ s t, s.Alike t → Mirrors e' (f s) (g t)) :
    Mirrors e' (get >>= f) (get >>= g) :=
  fun s t hst => h s t hst s t hst

/-- A choice mirrors another one that is made by the same condition. -/
theorem Mirrors.ite {c : Prop} [Decidable c] {x' y' : Work α} (hx : c → Mirrors e x y)
    (hy : ¬ c → Mirrors e x' y') : Mirrors e (if c then x else x') (if c then y else y') := by
  split
  next hc => exact hx hc
  next hc => exact hy hc

/-! ## Statements -/

/-- Whether tables exist is the same in stores that are alike. -/
theorem mirrors_requireTables (ts : List Table) :
    MirrorsExactly (requireTables ts) (requireTables ts) :=
  Mirrors.getBind fun s t hst => by
    have hsame : ts.find? (fun u => !s.contents.has u) = ts.find? fun u => !t.contents.has u := by
      simp only [hst.has]
    rw [hsame]
    cases ts.find? fun u => !t.contents.has u with
    | none => exact mirrors_pure rfl
    | some u => exact mirrors_throw _

/-- Whether the tables exist that a table refers to is the same in stores that are alike. -/
theorem mirrors_requireParents (table : Table) :
    MirrorsExactly (requireParents table) (requireParents table) :=
  Mirrors.getBind fun s t hst => by
    have hsame : table.parents.find? (fun u => !s.contents.has u) =
        table.parents.find? fun u => !t.contents.has u := by
      simp only [hst.has]
    rw [hsame]
    cases table.parents.find? fun u => !t.contents.has u with
    | none => exact mirrors_pure rfl
    | some u => exact mirrors_throw _

/-- Whether values can be taken is the same in all stores. -/
theorem mirrors_requireFits (vs : List Value) :
    MirrorsExactly (requireFits vs) (requireFits vs) :=
  Mirrors.ite (fun _ => mirrors_pure rfl) fun _ => mirrors_throw _

/-- A reading mirrors itself if what is looked at of it can be seen without time stamps. -/
theorem mirrors_read (ts : List Table) (vs : List Value) {f : Contents → α} (h : Contents → γ)
    (hf : ∀ c, h c.undated = e (f c)) : Mirrors e (read ts vs f) (read ts vs f) :=
  (mirrors_requireTables ts).bindSame fun _ => (mirrors_requireFits vs).bindSame fun _ =>
    Mirrors.getBind fun s t hst => mirrors_pure <| by rw [← hf, ← hf, hst.contents]

/-- What a change gives, as far as it is looked at, and the contents that it leaves, without time
stamps. -/
def undatedOutcome (e : α → γ) (r : Except StoreFault (α × Contents)) :
    Except StoreFault (γ × Contents) :=
  r.map fun p => (e p.1, p.2.undated)

section Changes

variable {f g : Contents → Except StoreFault (α × Contents)}
  (h : Contents → Except StoreFault (γ × Contents))
  (hf : ∀ c, undatedOutcome e (f c) = h c.undated) (hg : ∀ c, undatedOutcome e (g c) = h c.undated)

include hf hg

/-- Changes mirror each other that come to one and the same change of contents without time stamps. -/
theorem mirrors_change : Mirrors e (change f) (change g) := by
  intro s t hst
  cases hheld : s.heldElsewhere with
  | true =>
    rw [runOn_change_of_held hheld, runOn_change_of_held (hst.held ▸ hheld)]
    exact ⟨rfl, hst⟩
  | false =>
    rw [runOn_change_of_free hheld, runOn_change_of_free (hst.held ▸ hheld)]
    have hsame : undatedOutcome e (f s.contents) = undatedOutcome e (g t.contents) := by
      rw [hf, hg, hst.contents]
    rcases hleft : f s.contents with _ | ⟨a, c⟩ <;> rcases hright : g t.contents with _ | ⟨b, d⟩ <;>
      rw [hleft, hright] at hsame
    · obtain rfl := Except.error.inj hsame
      exact ⟨rfl, hst⟩
    · cases hsame
    · cases hsame
    · obtain ⟨hresult, hcontents⟩ := Prod.mk.inj (Except.ok.inj hsame)
      exact ⟨congrArg Except.ok hresult, hst.withContents hcontents⟩

/-- Statements mirror each other whose changes do. -/
theorem mirrors_write (ts : List Table) (vs : List Value) :
    Mirrors e (write ts vs f) (write ts vs g) :=
  (mirrors_requireTables ts).bindSame fun _ => (mirrors_requireFits vs).bindSame fun _ =>
    mirrors_change h hf hg

/-- Statements on a table with references mirror each other whose changes do. -/
theorem mirrors_writeReferring (table : Table) (vs : List Value) :
    Mirrors e (writeReferring table vs f) (writeReferring table vs g) :=
  (mirrors_requireTables [table]).bindSame fun _ => (mirrors_requireParents table).bindSame fun _ =>
    (mirrors_requireFits vs).bindSame fun _ => mirrors_change h hf hg

end Changes

/-- Statements whose changes always succeed mirror each other if the contents come to the same. -/
theorem mirrors_update {f g : Contents → Contents} (h : Contents → Contents)
    (hf : ∀ c, (f c).undated = h c.undated) (hg : ∀ c, (g c).undated = h c.undated)
    (ts : List Table) (vs : List Value) :
    MirrorsExactly (write ts vs fun c => .ok ((), f c)) (write ts vs fun c => .ok ((), g c)) :=
  mirrors_write (fun c => .ok ((), h c)) (fun c => hf c ▸ rfl) (fun c => hg c ▸ rfl) ts vs

/-- Blocks mirror each other whose bodies do. -/
theorem Mirrors.atomic (hx : ∀ s, (x.runOn s).2.setting = s.setting)
    (hy : ∀ s, (y.runOn s).2.setting = s.setting) (hxy : Mirrors e x y) :
    Mirrors e (atomic x) (atomic y) := by
  intro s t hst
  obtain ⟨hresult, hafter⟩ := hxy s.setSavepoint t.setSavepoint ⟨hst.contents, hst.categories, hst.held⟩
  rw [runOn_atomic hx, runOn_atomic hy]
  rcases hrun : x.runOn s.setSavepoint with ⟨_ | a, m⟩ <;>
    rcases hrun' : y.runOn t.setSavepoint with ⟨_ | b, n⟩ <;> rw [hrun, hrun'] at hresult hafter
  · exact ⟨hresult, hst.contents, hafter.categories, hafter.held⟩
  · cases hresult
  · cases hresult
  · exact ⟨hresult, hafter.contents, hafter.categories, hafter.held⟩

end Work

end Imageboard
