import Imageboard.Proofs.Query.Tokenizing
import Mathlib.Data.List.Chain

/-!
# Tidy text

Text is tidy if it is words with a single space between each two. Squeezing and trimming makes any text
tidy if anything is left of it, and it changes nothing in text that is tidy already. Text is tidy around
a space exactly if it is so on either side.
-/

namespace Imageboard.Text

/-- Whether of two neighbours at most one is blank. -/
def Apart (c d : Char) : Prop :=
  isBlank c = true → isBlank d = false

/-- Whether text is one word or more, with single spaces between them. -/
structure Tidy (cs : List Char) : Prop where
  /-- The space is the only blank. -/
  blank : ∀ c ∈ cs, isBlank c = true → c = ' '
  /-- Put between spaces, it has no blank beside another; so it has none at its ends, and is not empty. -/
  apart : (' ' :: (cs ++ [' '])).IsChain Apart

variable {cs us vs : List Char}

/-- Text is tidy around a space exactly if it is so on either side. -/
theorem tidy_append_space : Tidy (us ++ ' ' :: vs) ↔ Tidy us ∧ Tidy vs := by
  have hchain : (' ' :: ((us ++ ' ' :: vs) ++ [' '])).IsChain Apart ↔
      (' ' :: (us ++ [' '])).IsChain Apart ∧ (' ' :: (vs ++ [' '])).IsChain Apart := by
    rw [List.append_assoc, List.cons_append, List.isChain_cons_split]
  constructor
  · intro h
    obtain ⟨hus, hvs⟩ := hchain.1 h.apart
    exact ⟨⟨fun c hc => h.blank c (by simp [hc]), hus⟩, ⟨fun c hc => h.blank c (by simp [hc]), hvs⟩⟩
  · rintro ⟨hus, hvs⟩
    refine ⟨fun c hc hblank => ?_, hchain.2 ⟨hus.apart, hvs.apart⟩⟩
    rcases List.mem_append.1 hc with hc | hc
    · exact hus.blank c hc hblank
    · rcases List.mem_cons.1 hc with rfl | hc
      · rfl
      · exact hvs.blank c hc hblank

/-- What is known of the ends of tidy text, and of its inside. -/
theorem isChain_apart_iff : (' ' :: (cs ++ [' '])).IsChain Apart ↔
    cs ≠ [] ∧ cs.IsChain Apart ∧ (∀ c ∈ cs.head?, isBlank c = false) ∧
      ∀ c ∈ cs.getLast?, isBlank c = false := by
  have hafter (c : Char) : Apart ' ' c ↔ isBlank c = false := by simp [Apart, isBlank_space]
  have hbefore (c : Char) : Apart c ' ' ↔ isBlank c = false := by simp [Apart, isBlank_space]
  cases cs with
  | nil => simp [Apart, isBlank_space]
  | cons c rest =>
    rw [List.cons_append, List.isChain_cons_cons, ← List.cons_append, List.isChain_append]
    simp [hafter, hbefore, and_left_comm]

/-- A word is tidy. -/
theorem tidy_of_not_isBlank (hnil : cs ≠ []) (h : ∀ c ∈ cs, isBlank c = false) : Tidy cs := by
  refine ⟨fun c hc hblank => ?_, isChain_apart_iff.2 ⟨hnil, ?_, ?_, ?_⟩⟩
  · rw [h c hc] at hblank
    cases hblank
  · exact List.Pairwise.isChain (List.pairwise_of_forall_mem_list fun _ _ d hd _ => h d hd)
  · exact fun c hc => h c (List.mem_of_mem_head? hc)
  · exact fun c hc => h c (List.mem_of_mem_getLast? hc)

/-- Tidy text is trimmed. -/
theorem Tidy.trim_eq (h : Tidy cs) : trim cs = cs := by
  have hstart (ds : List Char) (hds : ∀ c ∈ ds.head?, isBlank c = false) : trimStart ds = ds := by
    cases ds with
    | nil => rfl
    | cons d rest => rw [trimStart, List.dropWhile_cons_of_neg (by simp [hds d rfl])]
  obtain ⟨-, -, hfirst, hlast⟩ := isChain_apart_iff.1 h.apart
  rw [trim, trimEnd, hstart cs hfirst, hstart cs.reverse (by simpa using hlast), List.reverse_reverse]

/-- Text without blanks side by side has nothing to squeeze. -/
theorem squeezeFrom_eq_self_of_isChain {within : Bool} (hblank : ∀ c ∈ cs, isBlank c = true → c = ' ')
    (hchain : cs.IsChain Apart) (hfirst : within = true → ∀ c ∈ cs.head?, isBlank c = false) :
    squeezeFrom within cs = cs := by
  induction cs generalizing within with
  | nil => rfl
  | cons c rest ih =>
    obtain ⟨hnext, hrest⟩ := List.isChain_cons.1 hchain
    have hrestBlank : ∀ d ∈ rest, isBlank d = true → d = ' ' :=
      fun d hd => hblank d (List.mem_cons_of_mem _ hd)
    rw [squeezeFrom]
    split
    next hc =>
      have hwithin : within ≠ true := fun hwithin => by simp [hfirst hwithin c rfl] at hc
      rw [if_neg hwithin, ih hrestBlank hrest fun _ d hd => hnext d hd hc,
        hblank c List.mem_cons_self hc]
    next hc => rw [ih hrestBlank hrest (by simp)]

/-- Tidy text is squeezed. -/
theorem Tidy.squeeze_eq (h : Tidy cs) : squeeze cs = cs :=
  squeezeFrom_eq_self_of_isChain h.blank (isChain_apart_iff.1 h.apart).2.1 (by simp)

/-- Squeezed text has no blanks side by side, and within a run of blanks it goes on with none. -/
theorem isChain_squeezeFrom (within : Bool) (cs : List Char) :
    (squeezeFrom within cs).IsChain Apart ∧
      (within = true → ∀ c ∈ (squeezeFrom within cs).head?, isBlank c = false) := by
  induction cs generalizing within with
  | nil => simp [squeezeFrom]
  | cons c rest ih =>
    rw [squeezeFrom]
    split
    next hc =>
      split
      next hwithin => exact ⟨(ih true).1, fun _ => (ih true).2 rfl⟩
      next hwithin =>
        exact ⟨List.isChain_cons.2 ⟨fun d hd _ => (ih true).2 rfl d hd, (ih true).1⟩,
          fun h => absurd h hwithin⟩
    next hc =>
      refine ⟨List.isChain_cons.2 ⟨fun d hd h => absurd h hc, (ih false).1⟩, fun _ d hd => ?_⟩
      obtain rfl := Option.some.inj hd
      simpa using hc

/-- What is left of text when it is squeezed and trimmed is tidy. -/
theorem tidy_trim_squeeze (hnil : trim (squeeze cs) ≠ []) : Tidy (trim (squeeze cs)) := by
  have hfirst (ds : List Char) : ∀ c ∈ (trimStart ds).head?, isBlank c = false := by
    intro c hc
    have hnot := List.head?_dropWhile_not isBlank ds
    rw [← trimStart, Option.mem_def.1 hc] at hnot
    exact hnot
  have hprefix : trim (squeeze cs) <+: trimStart (squeeze cs) :=
    List.reverse_suffix.1 (by simpa [trim, trimEnd, trimStart] using List.dropWhile_suffix _)
  have hinfix : trim (squeeze cs) <:+: squeeze cs :=
    hprefix.isInfix.trans (List.dropWhile_suffix _).isInfix
  refine ⟨fun c hc => ?_, isChain_apart_iff.2 ⟨hnil, ?_, ?_, ?_⟩⟩
  · exact eq_space_of_mem_squeezeFrom false (Query.mem_of_mem_trim hc)
  · exact List.IsChain.infix (isChain_squeezeFrom false cs).1 hinfix
  · rw [List.head?_eq_some_head hnil, hprefix.head hnil, ← List.head?_eq_some_head]
    exact hfirst _
  · rw [trim, trimEnd, List.getLast?_reverse]
    exact hfirst _

/-- Text is tidy exactly if there is some and squeezing and trimming it changes nothing. -/
theorem tidy_iff : Tidy cs ↔ cs ≠ [] ∧ trim (squeeze cs) = cs := by
  constructor
  · intro h
    exact ⟨(isChain_apart_iff.1 h.apart).1, by rw [h.squeeze_eq, h.trim_eq]⟩
  · rintro ⟨hnil, hsame⟩
    rw [← hsame] at hnil ⊢
    exact tidy_trim_squeeze hnil

instance : DecidablePred Tidy := fun _ =>
  decidable_of_iff _ tidy_iff.symm

end Imageboard.Text
