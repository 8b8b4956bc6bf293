import Imageboard.Proofs.Bulk.Processing
import Imageboard.Proofs.Relationship.Mirroring

/-!
# Splitting a script in two

A script can be cut at a line end and its parts processed one after the other. The commands that are
read are the same but for the numbers of their lines, and what a command does depends neither on the
transaction in which it is done nor on the time: it comes to the same in stores that are alike. The main
statement is that the whole script succeeds exactly if the parts succeed one after the other, and then
leaves the same contents up to time stamps, the same queue, and reports the same changes.
-/

namespace Imageboard.Bulk

/-! ## Cutting the text -/

/-- A character that ends no line is put before the first line. -/
theorem lines_cons {c : Char} {rest l : List Char} {more : List (List Char)} (hreturn : c ≠ '\r')
    (hfeed : c ≠ '\n') (h : lines rest = l :: more) : lines (c :: rest) = (c :: l) :: more := by
  rw [lines, h]
  all_goals simp [hreturn, hfeed]

/-- A line end in the middle of text cuts it, except that it may belong to a carriage return before it,
which then ends no line of its own. -/
theorem exists_lines_append (xs ys : List Char) :
    ∃ ls blank, ls ≠ [] ∧ (blank = [] ∨ blank = [[]]) ∧ lines xs = ls ++ blank ∧
      lines (xs ++ '\n' :: ys) = ls ++ lines ys := by
  induction xs using lines.induct with
  | case1 => exact ⟨[[]], [], by simp, Or.inl rfl, rfl, rfl⟩
  | case2 rest ih =>
    obtain ⟨ls, blank, -, hblank, hlines, hjoint⟩ := ih
    refine ⟨[] :: ls, blank, by simp, hblank, ?_, ?_⟩
    · rw [lines, hlines, List.cons_append]
    · rw [List.cons_append, List.cons_append, lines, hjoint, List.cons_append]
  | case3 rest hnot ih =>
    obtain ⟨ls, blank, -, hblank, hlines, hjoint⟩ := ih
    cases rest with
    | nil => exact ⟨[[]], [[]], by simp, Or.inr rfl, rfl, rfl⟩
    | cons c rest =>
      have hfeed : ∀ tail, c :: rest ++ '\n' :: ys = '\n' :: tail → False := by
        rintro tail htail
        obtain ⟨rfl, -⟩ := List.cons.inj htail
        exact hnot rest rfl
      refine ⟨[] :: ls, blank, by simp, hblank, ?_, ?_⟩
      · rw [lines, hlines, List.cons_append]
        exact hnot
      · rw [List.cons_append, lines, hjoint, List.cons_append]
        exact hfeed
  | case4 rest ih =>
    obtain ⟨ls, blank, -, hblank, hlines, hjoint⟩ := ih
    refine ⟨[] :: ls, blank, by simp, hblank, ?_, ?_⟩
    · rw [lines, hlines, List.cons_append]
    · rw [List.cons_append, lines, hjoint, List.cons_append]
  | case5 c rest _ _ _ hnone ih =>
    obtain ⟨ls, blank, hls, -, hlines, -⟩ := ih
    exact absurd (List.append_eq_nil_iff.1 (hlines.symm.trans hnone)).1 hls
  | case6 c rest _ hreturn hfeed _ _ _ ih =>
    obtain ⟨ls, blank, hls, hblank, hlines, hjoint⟩ := ih
    obtain ⟨l, more, rfl⟩ := List.exists_cons_of_ne_nil hls
    exact ⟨(c :: l) :: more, blank, by simp, hblank, lines_cons hreturn hfeed hlines,
      lines_cons hreturn hfeed hjoint⟩

/-! ## Reading the parts -/

/-- Lines are read as what the first ones and then the others are read as. -/
theorem readLines_append_eq_ok {n : Int} {ls ms : List (List Char)} {cs : List NumberedCommand} :
    readLines n (ls ++ ms) = .ok cs ↔
      ∃ cs₁ cs₂, readLines n ls = .ok cs₁ ∧ readLines (n + ls.length) ms = .ok cs₂ ∧
        cs = cs₁ ++ cs₂ := by
  induction ls generalizing n cs with
  | nil => simp [readLines]
  | cons l rest ih =>
    have hlength : n + ((l :: rest).length : Nat) = n + 1 + (rest.length : Nat) := by
      rw [List.length_cons]
      omega
    rw [List.cons_append, readLines, readLines, hlength]
    split
    next => exact ih
    next =>
      cases readLine _ n with
      | error e => simp
      | ok c =>
        dsimp only
        constructor
        · intro h
          obtain ⟨more, hmore, rfl⟩ := exists_of_map_eq_ok h
          obtain ⟨cs₁, cs₂, hfirst, hsecond, rfl⟩ := ih.1 hmore
          exact ⟨c :: cs₁, cs₂, by rw [hfirst]; rfl, hsecond, rfl⟩
        · rintro ⟨cs₁, cs₂, hfirst, hsecond, rfl⟩
          obtain ⟨more, hmore, rfl⟩ := exists_of_map_eq_ok hfirst
          rw [ih.2 ⟨more, cs₂, hmore, hsecond, rfl⟩]
          rfl

/-- Lines are read as the same commands from whatever number on. -/
theorem exists_readLines_of_eq_ok {n : Int} (m : Int) {ls : List (List Char)}
    {cs : List NumberedCommand} (h : readLines n ls = .ok cs) :
    ∃ ds, readLines m ls = .ok ds ∧ ds.map (·.command) = cs.map (·.command) := by
  induction ls generalizing n m cs with
  | nil =>
    obtain rfl := Except.ok.inj h
    exact ⟨[], rfl, rfl⟩
  | cons l rest ih =>
    rw [readLines] at h ⊢
    split at h
    next => exact ih (m + 1) h
    next =>
      unfold readLine at h ⊢
      split at h
      · cases h
      next c hc =>
        split at hc
        next command hcommand =>
          obtain rfl := Except.ok.inj hc
          obtain ⟨more, hmore, rfl⟩ := exists_of_map_eq_ok h
          obtain ⟨ds, hds, hsame⟩ := ih (m + 1) hmore
          refine ⟨⟨command, m⟩ :: ds, ?_, by rw [List.map_cons, List.map_cons, hsame]⟩
          dsimp only
          rw [hds]
          rfl
        next => cases hc

/-- A script can be read, as some commands. -/
def ReadsAs (text : String) (commands : List Command) : Prop :=
  ∃ cs, readScript text = .ok cs ∧ cs.map (·.command) = commands

/-- A script can be read exactly if its parts can, and its commands are theirs. -/
theorem readsAs_append_iff {first second : String} {commands : List Command} :
    ReadsAs (first ++ "\n" ++ second) commands ↔
      ∃ before after, ReadsAs first before ∧ ReadsAs second after ∧ commands = before ++ after := by
  obtain ⟨ls, blank, -, hblank, hlines, hjoint⟩ := exists_lines_append first.toList second.toList
  have htext : (first ++ "\n" ++ second).toList = first.toList ++ '\n' :: second.toList := by
    simp
  -- A line that is only left in the first part alone is blank.
  have hskip : ∀ n, readLines n blank = .ok [] := by
    rcases hblank with rfl | rfl
    · exact fun _ => rfl
    · exact fun _ => rfl
  simp only [ReadsAs, readScript, htext, hlines, hjoint]
  constructor
  · rintro ⟨cs, hread, rfl⟩
    obtain ⟨cs₁, cs₂, hfirst, hsecond, rfl⟩ := readLines_append_eq_ok.1 hread
    obtain ⟨ds, hds, hsame⟩ := exists_readLines_of_eq_ok 1 hsecond
    have halone := readLines_append_eq_ok.2 ⟨cs₁, [], hfirst, hskip _, (List.append_nil _).symm⟩
    exact ⟨_, _, ⟨cs₁, halone, rfl⟩, ⟨ds, hds, rfl⟩, by rw [List.map_append, hsame]⟩
  · rintro ⟨_, _, ⟨cs₁, hfirst, rfl⟩, ⟨cs₂, hsecond, rfl⟩, rfl⟩
    obtain ⟨ds, none, hds, hnone, rfl⟩ := readLines_append_eq_ok.1 hfirst
    obtain rfl := Except.ok.inj ((hskip _).symm.trans hnone)
    obtain ⟨es, hes, hsame⟩ := exists_readLines_of_eq_ok (1 + (ls.length : Int)) hsecond
    exact ⟨ds ++ es, readLines_append_eq_ok.2 ⟨ds, es, hds, hes, rfl⟩, by
      rw [List.map_append, hsame, List.append_nil]⟩

/-! ## Applying the parts -/

open Store Work Relationship

/-- What a change says without the number of its line: its command and how many posts it changed. -/
def Mutation.effect (m : Mutation) : Command × Int :=
  (m.command.command, m.postCount)

namespace Update

variable {u : Update} {viewer : Viewer} {number : Nat} {s t : Store}

/-- The update with another script. -/
def withText (u : Update) (text : String) : Update :=
  { u with text := text }

/-- A relationship is taken out of force in both stores. -/
theorem mirrors_remove (kind : RelationshipKind) (word antecedent consequent : String) :
    MirrorsExactly (remove kind word antecedent consequent)
      (remove kind word antecedent consequent) := by
  refine (mirrors_findRelationship _ _ _ _).bindOption (mirrors_throw _) fun r q hrq => ?_
  dsimp only
  rw [Relationship.reject, Relationship.reject, (sides_eq_of_undated_eq hrq).1]
  exact (mirrors_setRelationshipStatus _ _ _ _).bindSame fun _ => mirrors_pure rfl

/-- A tag is given another category in both stores. -/
theorem mirrors_changeCategory (u : Update) (name category : String) :
    MirrorsExactly (u.changeCategory name category) (u.changeCategory name category) := by
  refine Mirrors.bindSame (mirrors_lift _) fun code =>
    (mirrors_getTag name).bindOption (mirrors_throw _) fun a b hab => ?_
  have hcount : a.postCount = b.postCount := (congrArg Tag.postCount hab :)
  dsimp only
  rw [id_eq_of_undated_eq hab, hcount]
  exact (mirrors_setTagCategory _ _).bindSame fun _ => mirrors_pure rfl

/-- The jobs of commands are the same whatever lines the commands stand on. -/
theorem jobsOf_congr {cs ds : List NumberedCommand} (h : ds.map (·.command) = cs.map (·.command)) :
    jobsOf viewer ds = jobsOf viewer cs := by
  have hjobs (es : List NumberedCommand) :
      jobsOf viewer es = (es.map (·.command)).filterMap (jobOf? viewer) := by
    rw [List.filterMap_map]
    rfl
  rw [hjobs, hjobs, h]

/-- Having something done after a commit leaves a store that is like the one before. -/
theorem alike_afterCommit (number : Nat) (action : AfterCommit) (s : Store) :
    ((Work.afterCommit number action).runOn s).2.Alike s := by
  rw [Work.afterCommit, runOn_modify]
  dsimp only
  split
  · split
    · exact ⟨rfl, rfl, rfl⟩
    · exact .refl s
  · exact .refl s

/-- A command comes to the same in stores that are alike, whatever the script and the transaction. -/
theorem mirrors_applyCommand (u : Update) (viewer : Viewer) (first second : String)
    (number other : Nat) (c : Command) :
    MirrorsExactly ((u.withText first).applyCommand viewer number c)
      ((u.withText second).applyCommand viewer other c) := by
  cases c with
  | createAlias a c =>
    exact (mirrors_createAlias _ _ _ _ _ _).bind fun _ _ h => mirrors_approveAlias h _ _
  | createImplication a c =>
    exact (mirrors_createImplication _ _ _ _ _).bind fun _ _ h => mirrors_approveImplication h _
  | removeAlias a c => exact mirrors_remove _ _ _ _
  | removeImplication a c => exact mirrors_remove _ _ _ _
  | massUpdate query replacement =>
    exact (mirrors_modify (alike_afterCommit number _) (alike_afterCommit other _)).bindSame fun _ =>
      mirrors_pure rfl
  | changeCategory tag category => exact mirrors_changeCategory u tag category

/-- Commands that succeed one after the other do so in a store that is like the first, and leave a store
that is like the last, whatever the numbers of their lines, the script and the transaction. -/
theorem Applied.mirrored {first : String} {cs : List NumberedCommand} {ms : List Mutation}
    (h : Applied (u.withText first) viewer number cs s ms t) (second : String) (other : Nat)
    {ds : List NumberedCommand} (hds : ds.map (·.command) = cs.map (·.command)) {s' : Store}
    (hs : s.Alike s') :
    ∃ ns t', Applied (u.withText second) viewer other ds s' ns t' ∧
      ns.map Mutation.effect = ms.map Mutation.effect ∧ t.Alike t' := by
  induction h generalizing ds s' with
  | nil s =>
    obtain rfl := List.map_eq_nil_iff.1 hds
    exact ⟨[], s', .nil s', rfl, hs⟩
  | @cons c rest s m t n ms hfirst _ ih =>
    cases ds with
    | nil => cases hds
    | cons d more =>
      obtain ⟨hhead, hmore⟩ := List.cons.inj hds
      have hcommand : d.command = c.command := hhead
      obtain ⟨hresult, hafter⟩ :=
        mirrors_applyCommand u viewer first second number other c.command s s' hs
      rcases hrun : ((u.withText second).applyCommand viewer other c.command).runOn s' with
        ⟨e | n', m'⟩ <;> rw [hfirst, hrun] at hresult hafter
      · cases hresult
      obtain rfl : n = n' := Except.ok.inj hresult
      obtain ⟨ns, t', hrest, heffects, ht⟩ := ih hmore hafter
      refine ⟨⟨d, n⟩ :: ns, t', .cons (hcommand ▸ hrun) hrest, ?_, ht⟩
      rw [List.map_cons, List.map_cons, heffects, Mutation.effect, Mutation.effect, hcommand]

/-! ## Processing the parts -/

/-- An update succeeds with some changes and leaves a store. -/
def Reports (u : Update) (viewer : Viewer) (s : Store) (ms : List Mutation) (t : Store) : Prop :=
  (u.process viewer).runOn s = (.ok (.success ms), t)

/-- An update reports success if it succeeds, and then leaves what its commands left, committed. -/
theorem reports_iff {ms : List Mutation} :
    u.Reports viewer s ms t ↔
      ∃ cs inside, u.Succeeds viewer s cs ms inside ∧ t = inside.finished := by
  constructor
  · intro h
    rcases process_cases u viewer s with
      ⟨cs, ms', inside, hsucceeds, -, hrun⟩ | ⟨-, r, t', hrun, hreport, -⟩
    · obtain ⟨houtcome, rfl⟩ := Prod.mk.inj (h.symm.trans hrun)
      obtain rfl := Outcome.success.inj (Except.ok.inj houtcome)
      exact ⟨cs, inside, hsucceeds, rfl⟩
    · exact absurd (congrArg Prod.fst (hrun.symm.trans h)) (hreport ms)
  · rintro ⟨cs, inside, hsucceeds, rfl⟩
    exact hsucceeds.runOn_process

namespace Succeeds

variable {cs : List NumberedCommand} {ms : List Mutation} {inside : Store}

/-- Committing leaves the contents alone. -/
theorem alike_finished (h : u.Succeeds viewer s cs ms inside) : inside.Alike inside.finished := by
  rw [finished_of_some (h.applied.within h.idle rfl).transaction]
  exact ⟨rfl, rfl, rfl⟩

/-- After an update that succeeds another one can begin. -/
theorem idle_finished (h : u.Succeeds viewer s cs ms inside) : inside.finished.Idle := by
  have hwithin := h.applied.within h.idle rfl
  rw [finished_of_some hwithin.transaction]
  exact ⟨rfl, rfl, (congrArg Store.heldElsewhere hwithin.setting :).trans h.idle.free⟩

/-- After an update that succeeds another one can be committed. -/
theorem commits_finished (h : u.Succeeds viewer s cs ms inside) :
    inside.finished.commitsFail = false := by
  have hwithin := h.applied.within h.idle rfl
  rw [finished_of_some hwithin.transaction]
  exact (congrArg Store.commitsFail hwithin.setting :).trans h.commits

/-- An update that succeeds puts its jobs into the queue. -/
theorem queue_finished (h : u.Succeeds viewer s cs ms inside) :
    inside.finished.queue = s.queue ++ jobsOf viewer cs :=
  (h.applied.within h.idle rfl).queue_finished

end Succeeds

/-- A store is like one in which a transaction has been begun at another time. -/
theorem alike_begun (s : Store) (m : Moment) : s.Alike (s.atMoment m).begun :=
  ⟨rfl, rfl, rfl⟩

/-- At another time, too, a transaction can be begun or not. -/
theorem idle_atMoment_iff {m : Moment} : (s.atMoment m).Idle ↔ s.Idle :=
  ⟨fun h => ⟨h.transaction, h.savepoints, h.free⟩, fun h => ⟨h.transaction, h.savepoints, h.free⟩⟩

variable {first second : String} {ms₁ ms₂ : List Mutation} {t₁ t₂ : Store}

/-- If a script succeeds as a whole then so do its parts one after the other, at whatever times. -/
theorem Reports.exists_parts {ms : List Mutation}
    (h : (u.withText (first ++ "\n" ++ second)).Reports viewer s ms t) (m₁ m₂ : Moment) :
    ∃ ms₁ t₁ ms₂ t₂, (u.withText first).Reports viewer (s.atMoment m₁) ms₁ t₁ ∧
      (u.withText second).Reports viewer (t₁.atMoment m₂) ms₂ t₂ := by
  obtain ⟨cs, inside, hwhole, rfl⟩ := reports_iff.1 h
  obtain ⟨_, _, ⟨cs₁, hfirst, rfl⟩, ⟨cs₂, hsecond, rfl⟩, hcommands⟩ :=
    readsAs_append_iff.1 ⟨cs, hwhole.readable, rfl⟩
  obtain ⟨ds₁, ds₂, rfl, hds₁, hds₂⟩ := List.map_eq_append_iff.1 hcommands
  obtain ⟨ns₁, between, ns₂, hbefore, hafter, rfl⟩ := applied_append_iff.1 hwhole.applied
  have hstart : s.begun.Alike (s.atMoment m₁).begun := ⟨rfl, rfl, rfl⟩
  obtain ⟨ms₁, inside₁, happlied₁, -, halike⟩ :=
    hbefore.mirrored first (s.transactionCount + 1) hds₁.symm hstart
  have hpart₁ : (u.withText first).Succeeds viewer (s.atMoment m₁) cs₁ ms₁ inside₁ :=
    ⟨hfirst, idle_atMoment_iff.2 hwhole.idle, happlied₁, hwhole.commits⟩
  let middle := inside₁.finished.atMoment m₂
  have hmiddle : between.Alike middle.begun :=
    (halike.trans hpart₁.alike_finished).trans (alike_begun _ m₂)
  obtain ⟨ms₂, inside₂, happlied₂, -, -⟩ :=
    hafter.mirrored second (middle.transactionCount + 1) hds₂.symm hmiddle
  have hpart₂ : (u.withText second).Succeeds viewer middle cs₂ ms₂ inside₂ :=
    ⟨hsecond, idle_atMoment_iff.2 hpart₁.idle_finished, happlied₂, hpart₁.commits_finished⟩
  exact ⟨ms₁, _, ms₂, _, reports_iff.2 ⟨cs₁, inside₁, hpart₁, rfl⟩,
    reports_iff.2 ⟨cs₂, inside₂, hpart₂, rfl⟩⟩

/-- If the parts of a script succeed one after the other, at whatever times, then so does the script as
a whole, and it comes to the same. -/
theorem Reports.exists_whole {m₁ m₂ : Moment}
    (h₁ : (u.withText first).Reports viewer (s.atMoment m₁) ms₁ t₁)
    (h₂ : (u.withText second).Reports viewer (t₁.atMoment m₂) ms₂ t₂) :
    ∃ ms t, (u.withText (first ++ "\n" ++ second)).Reports viewer s ms t ∧
      t.contents.undated = t₂.contents.undated ∧ t.queue = t₂.queue ∧
      ms.map Mutation.effect = (ms₁ ++ ms₂).map Mutation.effect := by
  obtain ⟨cs₁, inside₁, hpart₁, rfl⟩ := reports_iff.1 h₁
  obtain ⟨cs₂, inside₂, hpart₂, rfl⟩ := reports_iff.1 h₂
  obtain ⟨cs, hread, hcommands⟩ := readsAs_append_iff.2
    ⟨_, _, ⟨cs₁, hpart₁.readable, rfl⟩, ⟨cs₂, hpart₂.readable, rfl⟩, rfl⟩
  obtain ⟨ds₁, ds₂, rfl, hds₁, hds₂⟩ := List.map_eq_append_iff.1 hcommands
  let text := first ++ "\n" ++ second
  have hstart : (s.atMoment m₁).begun.Alike s.begun := ⟨rfl, rfl, rfl⟩
  obtain ⟨ns₁, between, hbefore, heffects₁, hbetween⟩ :=
    hpart₁.applied.mirrored text (s.transactionCount + 1) hds₁ hstart
  have hmiddle : (inside₁.finished.atMoment m₂).begun.Alike between :=
    (hpart₁.alike_finished.trans (alike_begun _ m₂)).symm.trans hbetween
  obtain ⟨ns₂, inside, hafter, heffects₂, hinside⟩ :=
    hpart₂.applied.mirrored text (s.transactionCount + 1) hds₂ hmiddle
  have hwhole : (u.withText text).Succeeds viewer s (ds₁ ++ ds₂) (ns₁ ++ ns₂) inside :=
    ⟨hread, idle_atMoment_iff.1 hpart₁.idle,
      applied_append_iff.2 ⟨ns₁, between, ns₂, hbefore, hafter, rfl⟩, hpart₁.commits⟩
  refine ⟨_, _, reports_iff.2 ⟨_, inside, hwhole, rfl⟩, ?_, ?_, ?_⟩
  · have hsame := (hpart₂.alike_finished.symm.trans hinside).trans hwhole.alike_finished
    exact hsame.contents.symm
  · rw [hwhole.queue_finished, hpart₂.queue_finished]
    change s.queue ++ jobsOf viewer (ds₁ ++ ds₂) = inside₁.finished.queue ++ jobsOf viewer cs₂
    rw [hpart₁.queue_finished, ← jobsOf_congr hds₁, ← jobsOf_congr hds₂, jobsOf, List.filterMap_append,
      ← List.append_assoc]
    rfl
  · rw [List.map_append, List.map_append, heffects₁, heffects₂]

/-- Cutting a script in two at a line end makes no difference when it succeeds. It succeeds exactly if
its first part does and, on the store that this leaves, its second part, whatever the times. Then the
contents are the same up to time stamps, the queue is the same, and the changes are those of the first
part followed by those of the second, apart from the numbers of their lines. -/
theorem reports_append (u : Update) (viewer : Viewer) (s : Store) (first second : String)
    (m₁ m₂ : Moment) :
    ((∃ ms t, (u.withText (first ++ "\n" ++ second)).Reports viewer s ms t) ↔
      ∃ ms₁ t₁ ms₂ t₂, (u.withText first).Reports viewer (s.atMoment m₁) ms₁ t₁ ∧
        (u.withText second).Reports viewer (t₁.atMoment m₂) ms₂ t₂) ∧
    ∀ ms t ms₁ t₁ ms₂ t₂, (u.withText (first ++ "\n" ++ second)).Reports viewer s ms t →
      (u.withText first).Reports viewer (s.atMoment m₁) ms₁ t₁ →
      (u.withText second).Reports viewer (t₁.atMoment m₂) ms₂ t₂ →
      t.contents.undated = t₂.contents.undated ∧ t.queue = t₂.queue ∧
        ms.map Mutation.effect = (ms₁ ++ ms₂).map Mutation.effect := by
  refine ⟨⟨?_, ?_⟩, ?_⟩
  · rintro ⟨ms, t, hwhole⟩
    exact hwhole.exists_parts m₁ m₂
  · rintro ⟨ms₁, t₁, ms₂, t₂, h₁, h₂⟩
    obtain ⟨ms, t, hwhole, -⟩ := h₁.exists_whole h₂
    exact ⟨ms, t, hwhole⟩
  · intro ms t ms₁ t₁ ms₂ t₂ hwhole h₁ h₂
    obtain ⟨ms', t', hwhole', hsame⟩ := h₁.exists_whole h₂
    obtain ⟨houtcome, rfl⟩ := Prod.mk.inj (hwhole.symm.trans hwhole')
    obtain rfl := Outcome.success.inj (Except.ok.inj houtcome)
    exact hsame

/-- A script that gives a tag another category and then has it replaced can succeed, and then it does
so as well with one of its commands a minute after the other, and leaves the same contents. -/
theorem reports_append_dog :
    let s : Store :=
      .ofContents { Contents.empty with tags := [⟨1, "dog", 0, 0, .null, .null⟩] } ⟨0, 0⟩ .standard
    let u : Update := .ofText "" .standard
    let first := "category dog -> artist"
    let second := "update dog -> cat"
    ∃ ms t ms₁ t₁ ms₂ t₂, (u.withText (first ++ "\n" ++ second)).Reports .anonymous s ms t ∧
      (u.withText first).Reports .anonymous (s.atMoment ⟨0, 0⟩) ms₁ t₁ ∧
      (u.withText second).Reports .anonymous (t₁.atMoment ⟨60, 0⟩) ms₂ t₂ ∧
      t.contents.undated = t₂.contents.undated := by
  intro s u first second
  obtain ⟨t, hwhole⟩ : ∃ t, (u.withText (first ++ "\n" ++ second)).Reports .anonymous s
      [⟨⟨.changeCategory "dog" "artist", 1⟩, 0⟩, ⟨⟨.massUpdate "dog" "cat", 2⟩, 0⟩] t :=
    exists_runOn_eq_ok (by decide +kernel)
  have happend := reports_append u .anonymous s first second ⟨0, 0⟩ ⟨60, 0⟩
  obtain ⟨ms₁, t₁, ms₂, t₂, h₁, h₂⟩ := happend.1.1 ⟨_, t, hwhole⟩
  exact ⟨_, t, ms₁, t₁, ms₂, t₂, hwhole, h₁, h₂, (happend.2 _ _ _ _ _ _ hwhole h₁ h₂).1⟩

end Update

end Imageboard.Bulk
