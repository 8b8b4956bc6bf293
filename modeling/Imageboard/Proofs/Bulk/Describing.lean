import Imageboard.Bulk.Script
import Imageboard.Proofs.Query.Classifying
import Imageboard.Proofs.Query.Stating
import Imageboard.Proofs.Text.Tidying

/-!
# Commands as they are written

Each command has a written form, which is a line of a script. What a line is read as is a command of
words in stored spelling, or a mass update whose first arrow is the one between its sides; and the
written form of such a command is read as the command. So a script is read the same when it is written
out, but for the numbers of its lines.
-/

namespace Imageboard.Bulk

open Text

variable {cs rest : List Char}

/-! ## Keywords -/

/-- Characters are dropped from the front exactly if the text begins with them. -/
theorem dropFront?_eq_some_iff {front : List Char} :
    dropFront? front cs = some rest ↔ cs = front ++ rest := by
  induction front generalizing cs with
  | nil => simp [dropFront?]
  | cons a front ih =>
    cases cs with
    | nil => simp [dropFront?]
    | cons c cs =>
      rw [dropFront?]
      split
      next heq => simp [ih, heq]
      next hne => simp [Ne.symm hne]

/-- A keyword is dropped where it is written. -/
theorem dropKeyword?_append (keyword rest : List Char) :
    dropKeyword? keyword (keyword ++ rest) = some rest := by
  induction keyword with
  | nil => rfl
  | cons letter keyword ih => rw [List.cons_append, dropKeyword?, if_pos (by simp [standsFor]), ih]

/-- Whether a keyword has a letter that does not fit to the text at its place. -/
def clashes (keyword front : List Char) : Bool :=
  (keyword.zip front).any fun p => !standsFor p.1 p.2

/-- A keyword that does not fit to what a text begins with is not read. -/
theorem dropKeyword?_of_clashes {keyword front : List Char} (h : clashes keyword front = true)
    (rest : List Char) : dropKeyword? keyword (front ++ rest) = none := by
  induction keyword generalizing front with
  | nil => cases h
  | cons letter keyword ih =>
    cases front with
    | nil => cases h
    | cons c front =>
      rw [List.cons_append, dropKeyword?]
      split
      next hstands =>
        refine ih ?_
        simpa [clashes, hstands] using h
      next => rfl

/-- Only the space stands for the space. -/
theorem eq_space_of_standsFor {c : Char} (h : standsFor ' ' c = true) : c = ' ' := by
  have hcases : c = ' ' ∨ c.toLower = ' ' := by simpa [standsFor] using h
  rcases hcases with rfl | hlower
  · rfl
  · unfold Char.toLower at hlower
    split at hlower
    next hupper =>
      have hbounds : 65 ≤ c.val.toNat ∧ c.val.toNat ≤ 90 := by
        simpa [UInt32.le_iff_toNat_le] using hupper
      have hsum : (c.val.toNat + 32) % 2 ^ 32 = 32 := congrArg (fun d => d.val.toNat) hlower
      omega
    next => exact hlower

/-- A keyword with a space is read where there is a space. -/
theorem exists_of_dropKeyword? {keyword : List Char}
    (h : dropKeyword? (keyword ++ [' ']) cs = some rest) : ∃ front, cs = front ++ ' ' :: rest := by
  induction keyword generalizing cs with
  | nil =>
    cases cs with
    | nil => cases h
    | cons c cs =>
      rw [List.nil_append, dropKeyword?] at h
      split at h
      next hstands =>
        obtain rfl := eq_space_of_standsFor hstands
        obtain rfl := Option.some.inj h
        exact ⟨[], rfl⟩
      next => cases h
  | cons letter keyword ih =>
    cases cs with
    | nil => cases h
    | cons c cs =>
      rw [List.cons_append, dropKeyword?] at h
      split at h
      · obtain ⟨front, rfl⟩ := ih h
        exact ⟨c :: front, rfl⟩
      · cases h

/-! ## Sides -/

/-- Whether text is not empty and has no blanks. -/
structure IsWord (cs : List Char) : Prop where
  ne_nil : cs ≠ []
  blank : ∀ c ∈ cs, isBlank c = false

/-- Two sides that are words are split into these. -/
theorem splitWords?_eq_some_iff {a c : List Char} :
    splitWords? cs = some (a, c) ↔ cs = a ++ arrow ++ c ∧ IsWord a ∧ IsWord c := by
  unfold splitWords?
  constructor
  · intro h
    have hwhole := List.takeWhile_append_dropWhile (p := fun c => !isBlank c) (l := cs)
    have hfirst (d : Char) (hd : d ∈ cs.takeWhile fun c => !isBlank c) : isBlank d = false := by
      simpa using List.mem_takeWhile_imp hd
    dsimp only at h
    split at h
    next d word second hword hsecond =>
      split at h
      · cases h
      next hnot =>
        obtain ⟨rfl, rfl⟩ := Prod.mk.inj (Option.some.inj h)
        rw [dropFront?_eq_some_iff.1 hsecond] at hwhole
        simp only [Bool.or_eq_true, List.isEmpty_iff, List.any_eq_true, not_or, not_exists, not_and,
          Bool.not_eq_true] at hnot
        refine ⟨?_, ⟨by simp [hword], hfirst⟩, ⟨hnot.1, hnot.2⟩⟩
        rw [List.append_assoc, hwhole]
    next => cases h
  · rintro ⟨rfl, ha, hc⟩
    have hword : ∀ d ∈ a, (!isBlank d) = true := fun d hd => by simp [ha.blank d hd]
    have hfirst : (a ++ arrow ++ c).takeWhile (fun c => !isBlank c) = a := by
      rw [List.append_assoc, List.takeWhile_append_of_pos hword]
      exact List.append_nil a
    have hrest : (a ++ arrow ++ c).dropWhile (fun c => !isBlank c) = arrow ++ c := by
      rw [List.append_assoc, List.dropWhile_append_of_pos hword]
      rfl
    have hsecond : (c.isEmpty || c.any isBlank) = false := by
      simpa [hc.ne_nil] using hc.blank
    obtain ⟨d, word, rfl⟩ := List.exists_cons_of_ne_nil ha.ne_nil
    simp only [hfirst, hrest, dropFront?_eq_some_iff.2 rfl, hsecond]
    rfl

/-- Two sides that are split have an arrow between them. -/
theorem eq_of_splitTexts? {q r : List Char} (h : splitTexts? cs = some (q, r)) :
    cs = q ++ arrow ++ r := by
  have hsplit (before rest : List Char) (h : splitArrow? before rest = some (q, r)) :
      before.reverse ++ rest = q ++ arrow ++ r := by
    induction rest generalizing before with
    | nil => cases h
    | cons c rest ih =>
      rw [splitArrow?] at h
      split at h
      next after hafter =>
        obtain ⟨rfl, rfl⟩ := Prod.mk.inj (Option.some.inj h)
        split at hafter
        · cases hafter
        · rw [dropFront?_eq_some_iff.1 hafter, List.append_assoc]
      next =>
        have hcons := ih _ h
        rwa [List.reverse_cons, List.append_assoc, List.singleton_append] at hcons
  unfold splitTexts? at h
  split at h
  · cases h
  · exact hsplit [] cs h

/-! ## Lines -/

/-- Whether a text is a word in its stored spelling. -/
structure IsName (s : String) : Prop where
  word : IsWord s.toList
  lower : lower s.toList = s.toList

/-- Whether a command is one that lines are read as. -/
def Command.Written : Command → Prop
  | .createAlias a c | .createImplication a c | .removeAlias a c | .removeImplication a c
  | .changeCategory a c => IsName a ∧ IsName c
  | .massUpdate query replacement =>
    Tidy (query.toList ++ arrow ++ replacement.toList) ∧
      splitTexts? (query.toList ++ arrow ++ replacement.toList) =
        some (query.toList, replacement.toList)

/-- The lower case of a word is a name. -/
theorem IsWord.isName_lower {a : List Char} (h : IsWord a) : IsName (String.ofList (lower a)) := by
  constructor
  · rw [String.toList_ofList]
    exact ⟨fun hnil => h.ne_nil ((lowered_lower a).eq_nil_iff.1 hnil), Query.not_isBlank_lower h.blank⟩
  · rw [String.toList_ofList, lower_lower]

/-- The spelling under which a word is stored is a name. -/
theorem IsWord.isName_normalize {a : List Char} (h : IsWord a) :
    IsName (TagName.normalize (String.ofList a)) := by
  rw [TagName.normalize, String.toList_ofList, Query.normalizeChars_of_not_isBlank h.blank]
  exact h.isName_lower

/-- A name is stored as it is. -/
theorem IsName.normalize_eq {s : String} (h : IsName s) : TagName.normalize s = s := by
  rw [TagName.normalize, Query.normalizeChars_of_not_isBlank h.word.blank, h.lower, String.ofList_toList]

/-- Text is tidy around an arrow exactly if it is so on either side. -/
theorem tidy_arrow_iff {q r : List Char} : Tidy (q ++ arrow ++ r) ↔ Tidy q ∧ Tidy r := by
  have hsplit : q ++ arrow ++ r = q ++ ' ' :: (['-', '>'] ++ ' ' :: r) := List.append_assoc _ _ _
  have hblank : ['-', '>'].any isBlank = false := by decide +kernel
  have harrow : Tidy ['-', '>'] :=
    tidy_of_not_isBlank (List.cons_ne_nil _ _) (by simpa using hblank)
  rw [hsplit, tidy_append_space, tidy_append_space]
  simp [harrow]

/-- Words are read as a command that lines are read as, if the rule makes such commands of words. -/
theorem Command.written_of_words {build : String → String → Command} {c : Command}
    (h : (Shape.words build).read? rest = some c)
    (hbuild : ∀ a b, IsWord a → IsWord b → (build (String.ofList a) (String.ofList b)).Written) :
    c.Written := by
  obtain ⟨⟨a, b⟩, hsplit, rfl⟩ := Option.map_eq_some_iff.1 h
  obtain ⟨-, ha, hb⟩ := splitWords?_eq_some_iff.1 hsplit
  exact hbuild a b ha hb

/-- A tidy line is read as a command that lines are read as. -/
theorem Command.written_of_read? {rule : Rule} {c : Command} (hrule : rule ∈ grammar) (htidy : Tidy cs)
    (h : rule.read? cs = some c) : c.Written := by
  obtain ⟨keyword, -, hkeyword⟩ := List.exists_of_findSome?_eq_some h
  obtain ⟨rest, hrest, hread⟩ := Option.bind_eq_some_iff.1 hkeyword
  obtain ⟨front, rfl⟩ := exists_of_dropKeyword? hrest
  have hpair {a b : List Char} (ha : IsWord a) (hb : IsWord b) :
      IsName (TagName.normalize (String.ofList a)) ∧ IsName (TagName.normalize (String.ofList b)) :=
    ⟨ha.isName_normalize, hb.isName_normalize⟩
  simp only [grammar, List.mem_cons, List.not_mem_nil, or_false] at hrule
  rcases hrule with rfl | rfl | rfl | rfl | rfl | rfl
  · exact written_of_words hread fun a b ha hb => hpair ha hb
  · exact written_of_words hread fun a b ha hb => hpair ha hb
  · exact written_of_words hread fun a b ha hb => hpair ha hb
  · exact written_of_words hread fun a b ha hb => hpair ha hb
  · refine written_of_words hread fun a b ha hb => ⟨ha.isName_normalize, ?_⟩
    rw [lowerString, String.toList_ofList]
    exact hb.isName_lower
  · obtain ⟨⟨q, r⟩, hsplit, rfl⟩ := Option.map_eq_some_iff.1 hread
    obtain rfl := eq_of_splitTexts? hsplit
    obtain ⟨-, htexts⟩ := tidy_append_space.1 htidy
    obtain ⟨hq, hr⟩ := tidy_arrow_iff.1 htexts
    simp only [Written, String.toList_ofList, hq.trim_eq, hr.trim_eq]
    exact ⟨htexts, hsplit⟩

/-! ## Written forms -/

/-- The first item with a result is found at its place. -/
theorem findSome?_of_getElem? {α β : Type} {f : α → Option β} {xs : List α} {i : Nat} {x : α} {y : β}
    (hx : xs[i]? = some x) (hbefore : ∀ z ∈ xs.take i, f z = none) (hy : f x = some y) :
    xs.findSome? f = some y := by
  obtain ⟨hlength, rfl⟩ := List.getElem?_eq_some_iff.1 hx
  rw [← List.take_append_drop i xs, List.findSome?_append, List.findSome?_eq_none_iff.2 hbefore,
    Option.none_or, List.drop_eq_getElem_cons hlength, List.findSome?_cons, hy]

/-- A line is read by a rule if it begins with a keyword of it, and neither the rules before nor the
keywords before fit to what it begins with. -/
theorem findSome?_read? (i j : Nat) (keyword : String) {rule : Rule} {c : Command}
    (hrule : grammar[i]? = some rule) (hkeyword : rule.keywords[j]? = some keyword)
    (hrules : ∀ other ∈ grammar.take i, ∀ k ∈ other.keywords,
      clashes (k.toList ++ [' ']) (keyword.toList ++ [' ']) = true)
    (hkeywords : ∀ k ∈ rule.keywords.take j,
      clashes (k.toList ++ [' ']) (keyword.toList ++ [' ']) = true)
    (hread : rule.shape.read? rest = some c) :
    grammar.findSome? (Rule.read? (keyword.toList ++ [' '] ++ rest)) = some c := by
  have hnone (shape : Shape) (k : String)
      (hk : clashes (k.toList ++ [' ']) (keyword.toList ++ [' ']) = true) :
      (dropKeyword? (k.toList ++ [' ']) (keyword.toList ++ [' '] ++ rest)).bind shape.read? = none := by
    rw [dropKeyword?_of_clashes hk, Option.bind_none]
  refine findSome?_of_getElem? hrule (fun other hother => ?_) (findSome?_of_getElem? hkeyword ?_ ?_)
  · exact List.findSome?_eq_none_iff.2 fun k hk => hnone _ k (hrules other hother k hk)
  · exact fun k hk => hnone _ k (hkeywords k hk)
  · rw [dropKeyword?_append, Option.bind_some, hread]

namespace Command

variable {c : Command}

/-- The written form of a command is its keyword and, after a space, its sides around an arrow. -/
theorem toList_describe (c : Command) : c.describe.toList =
    c.keyword.toList ++ [' '] ++ (c.sides.1.toList ++ arrow ++ c.sides.2.toList) := by
  simp [describe, arrow]

/-- The sides of a command that lines are read as are tidy. -/
theorem Written.tidy_sides (h : c.Written) : Tidy (c.sides.1.toList ++ arrow ++ c.sides.2.toList) := by
  have hwords {a b : String} (h : IsName a ∧ IsName b) : Tidy (a.toList ++ arrow ++ b.toList) :=
    tidy_arrow_iff.2 ⟨tidy_of_not_isBlank h.1.word.ne_nil h.1.word.blank,
      tidy_of_not_isBlank h.2.word.ne_nil h.2.word.blank⟩
  cases c with
  | massUpdate query replacement => exact h.1
  | _ => exact hwords h

/-- The written form of a command that lines are read as is tidy. -/
theorem Written.tidy_describe (h : c.Written) : Tidy c.describe.toList := by
  have hkeywords : ∀ keyword ∈ ["create alias", "create implication", "remove alias",
      "remove implication", "mass update", "category"], Tidy keyword.toList := by
    decide +kernel
  have hkeyword : Tidy c.keyword.toList := hkeywords _ (by cases c <;> simp [keyword])
  rw [toList_describe, List.append_assoc]
  exact tidy_append_space.2 ⟨hkeyword, h.tidy_sides⟩

/-- The written form of a command that lines are read as is read as the command. -/
theorem Written.findSome?_read? (h : c.Written) :
    grammar.findSome? (Rule.read? c.describe.toList) = some c := by
  have hpair {a b : String} (build : String → String → Command) (h : IsName a ∧ IsName b) :
      (tagPair build).read? (a.toList ++ arrow ++ b.toList) = some (build a b) := by
    rw [tagPair, Shape.read?, splitWords?_eq_some_iff.2 ⟨rfl, h.1.word, h.2.word⟩, Option.map_some,
      String.ofList_toList, String.ofList_toList, h.1.normalize_eq, h.2.normalize_eq]
  rw [toList_describe]
  cases c with
  | createAlias a b =>
    exact Bulk.findSome?_read? 0 0 "create alias" rfl rfl (by decide +kernel) (by decide +kernel)
      (hpair _ h)
  | createImplication a b =>
    exact Bulk.findSome?_read? 1 0 "create implication" rfl rfl (by decide +kernel)
      (by decide +kernel) (hpair _ h)
  | removeAlias a b =>
    exact Bulk.findSome?_read? 2 0 "remove alias" rfl rfl (by decide +kernel) (by decide +kernel)
      (hpair _ h)
  | removeImplication a b =>
    exact Bulk.findSome?_read? 3 0 "remove implication" rfl rfl (by decide +kernel)
      (by decide +kernel) (hpair _ h)
  | changeCategory tag category =>
    refine Bulk.findSome?_read? 4 1 "category" rfl rfl (by decide +kernel) (by decide +kernel) ?_
    have hlower : lowerString category = category := by
      rw [lowerString, h.2.lower, String.ofList_toList]
    rw [Shape.read?, sides, splitWords?_eq_some_iff.2 ⟨rfl, h.1.word, h.2.word⟩, Option.map_some,
      String.ofList_toList, String.ofList_toList, h.1.normalize_eq, hlower]
  | massUpdate query replacement =>
    obtain ⟨htidy, hsplit⟩ := h
    obtain ⟨hquery, hreplacement⟩ := tidy_arrow_iff.1 htidy
    refine Bulk.findSome?_read? 5 0 "mass update" rfl rfl (by decide +kernel) (by decide +kernel) ?_
    rw [Shape.read?, sides, hsplit, Option.map_some, String.ofList_toList, String.ofList_toList,
      hquery.trim_eq, hreplacement.trim_eq, String.ofList_toList, String.ofList_toList]

end Command

/-- Tidy text has no line feed to drop. -/
theorem withoutLineFeed_of_tidy (h : Tidy cs) : withoutLineFeed cs = cs := by
  unfold withoutLineFeed
  split
  next hlast =>
    have hspace := h.blank _ (List.mem_of_getLast? hlast) (by decide)
    exact absurd hspace (by decide)
  next => rfl

/-- The written form of a command that lines are read as is read as the command. -/
theorem readLine_describe {c : Command} (h : c.Written) (n : Int) :
    readLine c.describe n = .ok ⟨c, n⟩ := by
  unfold readLine
  rw [withoutLineFeed_of_tidy h.tidy_describe, h.findSome?_read?]

/-! ## Scripts -/

/-- Whether text is on one line. -/
def IsLine (cs : List Char) : Prop :=
  '\r' ∉ cs ∧ '\n' ∉ cs

/-- Text on one line is one line, and a line feed ends it. -/
theorem lines_append (hcs : IsLine cs) (rest : List Char) :
    lines cs = [cs] ∧ lines (cs ++ '\n' :: rest) = cs :: lines rest := by
  induction cs with
  | nil => exact ⟨rfl, rfl⟩
  | cons c cs ih =>
    obtain ⟨⟨hreturn, hreturns⟩, hfeed, hfeeds⟩ :
        (c ≠ '\r' ∧ '\r' ∉ cs) ∧ c ≠ '\n' ∧ '\n' ∉ cs := by
      simpa [IsLine, eq_comm] using hcs
    obtain ⟨hone, hmore⟩ := ih ⟨hreturns, hfeeds⟩
    constructor
    · rw [lines, hone]
      all_goals simp [hreturn, hfeed]
    · rw [List.cons_append, lines, hmore]
      all_goals simp [hreturn, hfeed]

/-- Lines that are joined by line feeds are the lines of the text. -/
theorem lines_intercalate {ls : List (List Char)} (hnil : ls ≠ []) (hls : ∀ l ∈ ls, IsLine l) :
    lines (['\n'].intercalate ls) = ls := by
  induction ls with
  | nil => exact absurd rfl hnil
  | cons l rest ih =>
    obtain ⟨hl, hrest⟩ := List.forall_mem_cons.1 hls
    cases rest with
    | nil => rw [List.intercalate_singleton, (lines_append hl []).1]
    | cons m more =>
      rw [List.intercalate_cons_cons, List.append_assoc, List.singleton_append,
        (lines_append hl _).2, ih (List.cons_ne_nil _ _) hrest]

/-- Tidy text is on one line. -/
theorem isLine_of_tidy (h : Tidy cs) : IsLine cs := by
  constructor
  · exact fun hc => absurd (h.blank _ hc (by decide)) (by decide)
  · exact fun hc => absurd (h.blank _ hc (by decide)) (by decide)

/-- A line of a script is read as a command that lines are read as. -/
theorem written_of_readLine {n : Int} {c : NumberedCommand} (htidy : Tidy cs)
    (h : readLine (String.ofList cs) n = .ok c) : c.command.Written := by
  unfold readLine at h
  split at h
  next command hcommand =>
    obtain rfl := Except.ok.inj h
    rw [String.toList_ofList, withoutLineFeed_of_tidy htidy] at hcommand
    obtain ⟨rule, hrule, hread⟩ := List.exists_of_findSome?_eq_some hcommand
    exact Command.written_of_read? hrule htidy hread
  next => cases h

/-- What lines are read as is commands that lines are read as. -/
theorem written_of_readLines {n : Int} {ls : List (List Char)} {cs : List NumberedCommand}
    (h : readLines n ls = .ok cs) : ∀ c ∈ cs, c.command.Written := by
  induction ls generalizing n cs with
  | nil =>
    obtain rfl := Except.ok.inj h
    simp
  | cons l rest ih =>
    unfold readLines at h
    split at h
    next => exact ih h
    next line hnot =>
      split at h
      · cases h
      next c hc =>
        obtain ⟨more, hmore, rfl⟩ := exists_of_map_eq_ok h
        exact List.forall_mem_cons.2 ⟨written_of_readLine (tidy_trim_squeeze hnot) hc, ih hmore⟩

/-- The written forms of commands are read as the commands, numbered one after the other. -/
theorem readLines_describe {cs : List NumberedCommand} (h : ∀ c ∈ cs, c.command.Written) (n : Int) :
    readLines n (cs.map (·.command.describe.toList)) =
      .ok (cs.mapIdx fun i c => { c with lineNumber := n + i }) := by
  induction cs generalizing n with
  | nil => rfl
  | cons c rest ih =>
    obtain ⟨hc, hrest⟩ := List.forall_mem_cons.1 h
    obtain ⟨hnil, hline⟩ := tidy_iff.1 hc.tidy_describe
    have hmore : readLines (n + 1) (rest.map (·.command.describe.toList)) =
        .ok (rest.mapIdx fun i c => { c with lineNumber := n + (i + 1 : Nat) }) := by
      rw [ih hrest]
      simp only [Int.natCast_add, Int.natCast_one, Int.add_assoc, Int.add_comm 1]
    rw [List.map_cons]
    unfold readLines
    rw [hline]
    split
    next heq => exact absurd heq hnil
    next =>
      rw [String.ofList_toList, readLine_describe hc]
      dsimp only
      rw [hmore, List.mapIdx_cons, Except.map, Int.natCast_zero, Int.add_zero]

/-- A script that is read is read the same when its commands are written out, one on each line, but for
the numbers of the lines. -/
theorem readScript_describe {text : String} {cs : List NumberedCommand} (h : readScript text = .ok cs) :
    readScript ("\n".intercalate (cs.map (·.command.describe))) =
      .ok (cs.mapIdx fun i c => { c with lineNumber := i + 1 }) := by
  have hwritten := written_of_readLines h
  have hnumbers : (cs.mapIdx fun i c => { c with lineNumber := (i : Int) + 1 }) =
      cs.mapIdx fun i c => { c with lineNumber := 1 + (i : Int) } := by
    simp only [Int.add_comm 1]
  have hlines : ∀ l ∈ cs.map (·.command.describe.toList), IsLine l := by
    intro l hl
    obtain ⟨c, hc, rfl⟩ := List.mem_map.1 hl
    exact isLine_of_tidy (hwritten c hc).tidy_describe
  rw [hnumbers, ← readLines_describe hwritten 1, readScript, String.toList_intercalate, List.map_map]
  cases cs with
  | nil => rfl
  | cons c rest => exact congrArg (readLines 1) (lines_intercalate (List.cons_ne_nil _ _) hlines)

/-- A script with a synonym, a blank line and an arrow in a replacement is read the same. -/
theorem readScript_describe_synonyms :
    let cs : List NumberedCommand := [⟨.createAlias "cat" "dog", 1⟩, ⟨.massUpdate "a b" "c -> d", 3⟩]
    readScript "ALIAS  Cat -> dog\r\n\nchange a b -> c -> d" = .ok cs ∧
      readScript "create alias cat -> dog\nmass update a b -> c -> d" =
        .ok [⟨.createAlias "cat" "dog", 1⟩, ⟨.massUpdate "a b" "c -> d", 2⟩] := by
  intro cs
  have hread : readScript "ALIAS  Cat -> dog\r\n\nchange a b -> c -> d" = .ok cs := by
    decide +kernel
  have hwritten : "\n".intercalate (cs.map (·.command.describe)) =
      "create alias cat -> dog\nmass update a b -> c -> d" := by
    decide +kernel
  exact ⟨hread, hwritten ▸ readScript_describe hread⟩

end Imageboard.Bulk
