import Imageboard.Proofs.Query.Ordering
import Imageboard.Proofs.Query.Refusing
import Mathlib.Data.List.TakeWhile

/-!
# Lists of ids

A range of ids can be a list of them, with commas in between. The signs of the other forms of a range are
no part of an id, so that a text is read as a list exactly if it has a comma and all that stands between
commas are ids. A custom order takes the ids from the last of the terms that are such lists and not
excluded.
-/

namespace Imageboard

open Text

/-! ## Integers -/

/-- What is not dropped from the front of a list stays. -/
theorem mem_dropWhile {α : Type} {p : α → Bool} {xs : List α} {x : α} (hx : x ∈ xs) (hp : p x = false) :
    x ∈ xs.dropWhile p := by
  rw [← List.takeWhile_append_dropWhile (p := p) (l := xs), List.mem_append] at hx
  refine hx.resolve_left fun htaken => ?_
  rw [List.mem_takeWhile_imp htaken] at hp
  cases hp

/-- Apart from underscores nothing is dropped. -/
theorem mem_of_dropUnderscores {afterDigit : Bool} {cs ds : List Char} {c : Char}
    (h : dropUnderscores afterDigit cs = some ds) (hc : c ∈ cs) (hne : c ≠ '_') : c ∈ ds := by
  fun_induction dropUnderscores afterDigit cs generalizing ds with
  | case1 => exact absurd hc List.not_mem_nil
  | case2 afterDigit d rest hdigit ih =>
    exact ih h ((List.mem_cons.1 hc).resolve_left hne)
  | case3 => cases h
  | case4 => cases h
  | case5 afterDigit d rest _ _ ih =>
    obtain ⟨es, hes, rfl⟩ := Option.map_eq_some_iff.1 h
    rcases List.mem_cons.1 hc with rfl | hc
    · exact List.mem_cons_self
    · exact List.mem_cons_of_mem _ (ih hes hc)

/-- The ASCII characters of an integer are digits, blanks, underscores and signs. -/
theorem of_mem_of_readInteger? {s : String} {n : Int} {c : Char} (h : readInteger? s = some n)
    (hc : c ∈ s.toList) (hascii : c.toNat < 0x80) :
    c.isDigit = true ∨ isAsciiBlank c = true ∨ c ∈ ['_', '-', '+'] := by
  by_cases hblank : isAsciiBlank c = true
  · exact Or.inr (Or.inl hblank)
  by_cases hmark : c ∈ ['_', '-', '+']
  · exact Or.inr (Or.inr hmark)
  refine Or.inl ?_
  simp only [List.mem_cons, List.not_mem_nil, or_false, not_or] at hmark
  have hplain : c ∈ plainNumeral s.toList := List.mem_map.2 ⟨c, hc, if_pos hascii⟩
  have htrimmed : c ∈ trimmedNumeral s.toList :=
    List.mem_reverse.2 (mem_dropWhile (List.mem_reverse.2 (mem_dropWhile hplain (by simpa using hblank)))
      (by simpa using hblank))
  have hbody : c ∈ (splitSign (trimmedNumeral s.toList)).2 := by
    unfold splitSign
    split
    next hs => exact (List.mem_cons.1 (hs ▸ htrimmed)).resolve_left hmark.2.1
    next hs => exact (List.mem_cons.1 (hs ▸ htrimmed)).resolve_left hmark.2.2
    next => exact htrimmed
  unfold readInteger? at h
  dsimp only at h
  split at h
  · cases h
  next ds hds =>
    split at h
    · cases h
    next hdigits =>
      simp only [Bool.or_eq_true, not_or, Bool.not_eq_true', Bool.not_eq_false, decide_eq_true_eq] at hdigits
      exact List.all_eq_true.1 hdigits.1.2 c (mem_of_dropUnderscores hds hbody hmark.1)

namespace Query

/-! ## Items between commas -/

/-- What is not blank stays when a text is trimmed. -/
theorem mem_trim {cs : List Char} {c : Char} (hc : c ∈ cs) (hblank : isBlank c = false) : c ∈ trim cs :=
  List.mem_reverse.2 (mem_dropWhile (List.mem_reverse.2 (mem_dropWhile hc hblank)) hblank)

/-- All but the commas stands between commas. -/
theorem exists_mem_splitCommas {cs : List Char} {c : Char} (hc : c ∈ cs) (hne : c ≠ ',') :
    ∃ part ∈ splitCommas cs, c ∈ part := by
  fun_induction splitCommas cs with
  | case1 => exact absurd hc List.not_mem_nil
  | case2 rest ih =>
    obtain ⟨part, hpart, hmem⟩ := ih ((List.mem_cons.1 hc).resolve_left hne)
    exact ⟨part, List.mem_cons_of_mem _ hpart, hmem⟩
  | case3 d rest _ hnil ih =>
    rcases List.mem_cons.1 hc with rfl | hc
    · exact ⟨_, List.mem_cons_self, List.mem_cons_self⟩
    · obtain ⟨part, hpart, -⟩ := ih hc
      rw [hnil] at hpart
      exact absurd hpart List.not_mem_nil
  | case4 d rest _ part more hsplit ih =>
    rcases List.mem_cons.1 hc with rfl | hc
    · exact ⟨_, List.mem_cons_self, List.mem_cons_self⟩
    · obtain ⟨other, hother, hmem⟩ := ih hc
      rw [hsplit] at hother
      rcases List.mem_cons.1 hother with rfl | hother
      · exact ⟨_, List.mem_cons_self, List.mem_cons_of_mem _ hmem⟩
      · exact ⟨other, List.mem_cons_of_mem _ hother, hmem⟩

/-- What is not blank and no comma stands in an item. -/
theorem exists_mem_commaItems {cs : List Char} {c : Char} (hc : c ∈ cs) (hne : c ≠ ',')
    (hblank : isBlank c = false) : ∃ item ∈ commaItems cs, c ∈ item := by
  obtain ⟨part, hpart, hmem⟩ := exists_mem_splitCommas hc hne
  have htrim := mem_trim hmem hblank
  refine ⟨trim part, List.mem_filter.2 ⟨List.mem_map_of_mem hpart, ?_⟩, htrim⟩
  simpa using List.ne_nil_of_mem htrim

/-! ## Texts that list ids -/

/-- Whether a text lists some ids: there are commas in it, and what stands between them, blanks apart, are
these ids, of which there is one at least. -/
structure IsIdList (text : List Char) (ids : List Int) : Prop where
  comma : ',' ∈ text
  nonempty : ids ≠ []
  items : (commaItems text).map (fun item => readInteger? (String.ofList item)) = ids.map some

/-- What is read as an integer value is an integer. -/
theorem readIntegerValue_eq_ok_iff {s : String} {v : Value} :
    readIntegerValue s = .ok v ↔ ∃ n, readInteger? s = some n ∧ v = .integer n := by
  unfold readIntegerValue
  cases readInteger? s <;> simp [eq_comm]

/-- Items are read as integers exactly if each of them is one. -/
theorem mapM_readIntegerValue_eq_ok_iff {items : List (List Char)} {vs : List Value} :
    items.mapM (fun item => readIntegerValue (String.ofList item)) = .ok vs ↔
      ∃ ids : List Int, vs = ids.map .integer ∧
        items.map (fun item => readInteger? (String.ofList item)) = ids.map some := by
  constructor
  · intro h
    have hitems := map_eq_of_mapM_eq_ok h
    clear h
    induction items generalizing vs with
    | nil => exact ⟨[], by simpa using hitems.symm, rfl⟩
    | cons item items ih =>
      obtain ⟨v, vs, rfl⟩ : ∃ v ws, vs = v :: ws := by
        cases vs with
        | nil => cases hitems
        | cons v ws => exact ⟨v, ws, rfl⟩
      obtain ⟨hitem, hrest⟩ := List.cons.inj hitems
      obtain ⟨ids, rfl, hids⟩ := ih hrest
      obtain ⟨n, hn, rfl⟩ := readIntegerValue_eq_ok_iff.1 hitem
      exact ⟨n :: ids, rfl, congrArg₂ List.cons hn hids⟩
  · rintro ⟨ids, rfl, hids⟩
    induction items generalizing ids with
    | nil =>
      obtain rfl : ids = [] := by simpa using hids.symm
      rfl
    | cons item items ih =>
      cases ids with
      | nil => cases hids
      | cons n ids =>
        obtain ⟨hitem, hrest⟩ := List.cons.inj hids
        have hread : readIntegerValue (String.ofList item) = .ok (.integer n) :=
          readIntegerValue_eq_ok_iff.2 ⟨n, hitem, rfl⟩
        rw [List.mapM_cons, hread, ih ids hrest]
        rfl

/-- In a list of ids there are no signs of the other forms of a range. -/
theorem IsIdList.not_mem {text : List Char} {ids : List Int} (h : IsIdList text ids) {c : Char}
    (hc : c ∈ ['.', '<', '>']) : c ∉ text := by
  have hsign : c ≠ ',' ∧ isBlank c = false ∧ c.toNat < 0x80 ∧ c.isDigit = false ∧
      isAsciiBlank c = false ∧ c ∉ ['_', '-', '+'] := by
    simp only [List.mem_cons, List.not_mem_nil, or_false] at hc
    rcases hc with rfl | rfl | rfl <;> decide
  obtain ⟨hcomma, hblank, hascii, hdigit, hspace, hmark⟩ := hsign
  intro hmem
  obtain ⟨item, hitem, hc'⟩ := exists_mem_commaItems hmem hcomma hblank
  have hread : readInteger? (String.ofList item) ∈ ids.map some := by
    rw [← h.items]
    exact List.mem_map_of_mem (f := fun item => readInteger? (String.ofList item)) hitem
  obtain ⟨n, -, hn⟩ := List.mem_map.1 hread
  rcases of_mem_of_readInteger? hn.symm (by rwa [String.toList_ofList]) hascii with hd | hb | hm
  · rw [hdigit] at hd
    cases hd
  · rw [hspace] at hb
    cases hb
  · exact hmark hm

/-- Two dots in a row are dots. -/
theorem mem_of_splitDots? {cs : List Char} {parts : List Char × List Char}
    (h : splitDots? cs = some parts) : '.' ∈ cs := by
  fun_induction splitDots? cs generalizing parts with
  | case1 => exact List.mem_cons_self
  | case2 c rest _ ih =>
    obtain ⟨other, hother, -⟩ := Option.map_eq_some_iff.1 h
    exact List.mem_cons_of_mem _ (ih hother)
  | case3 => cases h

/-- Only a text with commas is read as a list, and then from what stands between them. -/
theorem of_readRangeChars_eq_among {read : List Char → Except Failure Value} {text : List Char}
    {vs : List Value} (h : readRangeChars read text = .ok (.among vs)) :
    ',' ∈ text ∧ commaItems text ≠ [] ∧ (commaItems text).mapM read = .ok vs := by
  -- The other forms of a range are read as one value, which is put under a constructor of its own.
  have hother {result : Except Failure Value} {form : Value → Range}
      (h : result.map form = .ok (.among vs)) (hform : ∀ v, form v ≠ .among vs) : False := by
    obtain ⟨v, -, hv⟩ := exists_of_map_eq_ok h
    exact hform v hv
  unfold readRangeChars at h
  split at h
  · split at h
    · cases h
    · exact (hother h fun _ => by simp).elim
    · exact (hother h fun _ => by simp).elim
    · split at h
      · cases h
      · exact (hother h fun _ => by simp).elim
  · split at h
    · exact (hother h fun _ => by simp).elim
    · exact (hother h fun _ => by simp).elim
    · exact (hother h fun _ => by simp).elim
    · exact (hother h fun _ => by simp).elim
    · split at h
      next hcomma =>
        split at h
        · cases h
        next hitems =>
          obtain ⟨us, hread, heq⟩ := exists_of_map_eq_ok h
          obtain rfl := Range.among.inj heq
          exact ⟨hcomma, hitems, hread⟩
      next => exact (hother h fun _ => by simp).elim

/-- A text with commas and without the signs of the other forms of a range is read as a list. -/
theorem readRangeChars_eq_map_among {read : List Char → Except Failure Value} {text : List Char}
    (hsigns : ∀ c ∈ ['.', '<', '>'], c ∉ text) (hcomma : ',' ∈ text) (hitems : commaItems text ≠ []) :
    readRangeChars read text = ((commaItems text).mapM read).map .among := by
  have hdots : splitDots? text = none :=
    Option.eq_none_iff_forall_ne_some.2 fun _ hparts =>
      hsigns '.' (by decide) (mem_of_splitDots? hparts)
  unfold readRangeChars
  rw [hdots]
  dsimp only
  split
  · exact (hsigns '>' (by decide) List.mem_cons_self).elim
  · exact (hsigns '<' (by decide) List.mem_cons_self).elim
  · exact (hsigns '>' (by decide) List.mem_cons_self).elim
  · exact (hsigns '<' (by decide) List.mem_cons_self).elim
  · rw [if_pos hcomma]
    split
    next hnil => exact absurd hnil hitems
    next => rfl

/-- A text is read as a list of integers exactly if it lists ids. -/
theorem readRangeChars_eq_among_iff {text : List Char} {vs : List Value} :
    readRangeChars (fun part => readIntegerValue (String.ofList part)) text = .ok (.among vs) ↔
      ∃ ids : List Int, vs = ids.map .integer ∧ IsIdList text ids := by
  constructor
  · intro h
    obtain ⟨hcomma, hitems, hread⟩ := of_readRangeChars_eq_among h
    obtain ⟨ids, rfl, hids⟩ := mapM_readIntegerValue_eq_ok_iff.1 hread
    refine ⟨ids, rfl, hcomma, ?_, hids⟩
    rintro rfl
    exact hitems (List.map_eq_nil_iff.1 hids)
  · rintro ⟨ids, rfl, h⟩
    have hitems : commaItems text ≠ [] := by
      intro hnil
      have hnone := h.items
      rw [hnil] at hnone
      exact h.nonempty (List.map_eq_nil_iff.1 hnone.symm)
    rw [readRangeChars_eq_map_among (fun c hc => h.not_mem hc) h.comma hitems,
      mapM_readIntegerValue_eq_ok_iff.2 ⟨ids, rfl, h.items⟩]
    rfl

/-- A range of integers is a list exactly if its text lists ids. -/
theorem readRange_eq_among_iff {value : String} {vs : List Value} :
    readRange readIntegerValue "integer" value = .ok (.among vs) ↔
      ∃ ids : List Int, vs = ids.map .integer ∧ IsIdList (trim value.toList) ids := by
  rw [← readRangeChars_eq_among_iff]
  unfold readRange
  split
  next hnil =>
    rw [hnil]
    refine iff_of_false (fun h => by cases h) fun h => ?_
    exact List.not_mem_nil (of_readRangeChars_eq_among h).1
  next =>
    split
    next range hrange => rw [hrange]
    next e he =>
      rw [he]
      exact iff_of_false (fun h => by cases h) fun h => by cases h

/-! ## Terms that list ids -/

/-- Whether a term asks for posts with one of some ids, which it lists. -/
structure Term.ListsIds (t : Term) (ids : List Int) : Prop where
  metatag : t.kind = .metatag
  name : t.name = "id"
  kept : t.polarity ≠ .negated
  listed : IsIdList (trim (t.value.getD "").toList) ids

/-- Whether the last of some terms that lists ids lists these. -/
def IsLastIdList (ts : List Term) (ids : List Int) : Prop :=
  ∃ before t after, ts = before ++ t :: after ∧ t.ListsIds ids ∧
    ∀ u ∈ after, ∀ others, ¬ u.ListsIds others

/-- A range of a column other than the time of creation and the source is asked for by a metatag of that
column, which reads a quantity or takes texts. -/
theorem Handler.cases_of_apply_range {handler : Handler} {viewer : Viewer} {now : Moment}
    {value : String} {effect : Effect} {column : Column} {r : Range} {category : Option Int}
    (h : handler.apply viewer now value = .ok effect)
    (hrange : effect.predicate = some (.range column r category)) (hcreated : column ≠ .createdAt)
    (hsource : column ≠ .source) :
    (∃ kind, handler = .quantity column kind category ∧ kind.readRange value = .ok r) ∨
      ∃ initialOnly, handler = .texts column initialOnly := by
  cases handler with
  | quantity other kind category' =>
    obtain ⟨r', hr', rfl⟩ := exists_of_map_eq_ok h
    obtain ⟨rfl, rfl, rfl⟩ := Predicate.range.inj (Option.some.inj hrange)
    exact Or.inl ⟨kind, rfl, hr'⟩
  | texts other initialOnly =>
    refine Or.inr ⟨initialOnly, ?_⟩
    simp only [apply] at h
    split at h
    · cases h
    all_goals
      obtain rfl := Except.ok.inj h
      rw [(Predicate.range.inj (Option.some.inj hrange)).1]
  | age =>
    simp only [apply] at h
    split at h
    · cases h
    · obtain ⟨r', -, rfl⟩ := exists_of_map_eq_ok h
      exact absurd (Predicate.range.inj (Option.some.inj hrange)).1.symm hcreated
  | source =>
    simp only [apply] at h
    split at h <;> obtain rfl := Except.ok.inj h
    · exact absurd (Predicate.range.inj (Option.some.inj hrange)).1.symm hsource
    · cases hrange
  | status =>
    simp only [apply] at h
    split at h <;> obtain rfl := Except.ok.inj h
    next p hp =>
      unfold statusPredicate? at hp
      split at hp <;> cases hp <;> cases hrange
    next => cases hrange
  | _ =>
    simp only [apply] at h
    repeat' split at h
    all_goals first
      | cases h; done
      | obtain rfl := Except.ok.inj h; cases hrange

/-- Only the metatag of ids asks for ids in a range, and it reads them as integers. -/
theorem Registry.of_evaluate_range_id {categories : Categories} {viewer : Viewer} {now : Moment}
    {name value : String} {effect : Effect} {r : Range} {category : Option Int}
    (h : (ofCategories categories).evaluate viewer now name value = .ok effect)
    (hrange : effect.predicate = some (.range .id r category)) :
    lowerString name = "id" ∧ readRange readIntegerValue "integer" value = .ok r := by
  unfold evaluate at h
  split at h
  next handler hfound =>
    rcases Handler.cases_of_apply_range h hrange nofun nofun with
      ⟨kind, rfl, hread⟩ | ⟨initialOnly, rfl⟩
    · rcases cases_of_find? hfound with hfixed | ⟨_, hcount⟩
      · obtain ⟨hname, rfl, -⟩ : lowerString name = "id" ∧ kind = .integer ∧ category = none := by
          simpa [fixed] using hfixed
        exact ⟨hname, hread⟩
      · cases hcount
    · rcases cases_of_find? hfound with hfixed | ⟨_, hcount⟩
      · simp [fixed] at hfixed
      · cases hcount
  next => cases h

section Terms

variable {config : Config} {viewer : Viewer} {now : Moment} {t : Term} {ids : List Int}

/-- The metatag of ids is on each board. -/
theorem Registry.find?_id (categories : Categories) :
    (Registry.ofCategories categories).find? "id" = some (.quantity .id .integer none) :=
  Registry.find?_of_fixed (by decide) (by decide) categories

/-- A term that lists ids has a condition that does. -/
theorem Term.ListsIds.exists_idList? (h : t.ListsIds ids) :
    ∃ k ∈ t.conditions config viewer now, Draft.idList? k = some (ids.map .integer) := by
  have hread : QuantityKind.readRange .integer (t.value.getD "") = .ok (.among (ids.map .integer)) :=
    readRange_eq_among_iff.2 ⟨ids, rfl, h.listed⟩
  have heffect : t.effect config viewer now =
      .ok (.select (.range .id (.among (ids.map .integer)) none)) := by
    rw [Term.effect, Registry.evaluate, h.name, show lowerString "id" = "id" by decide +kernel,
      Registry.find?_id]
    dsimp only
    rw [Handler.apply, hread]
    rfl
  refine ⟨⟨.range .id (.among (ids.map .integer)) none, false⟩, ?_, rfl⟩
  simp [Term.conditions, h.metatag, heffect, Effect.select, h.kept]

/-- A term with a condition that lists values lists ids, which are these values. -/
theorem Term.exists_listsIds {k : Condition} {vs : List Value}
    (hlower : t.kind = .metatag → lowerString t.name = t.name)
    (hk : k ∈ t.conditions config viewer now) (hlist : Draft.idList? k = some vs) :
    ∃ ids : List Int, vs = ids.map .integer ∧ t.ListsIds ids := by
  obtain ⟨category, rfl⟩ : ∃ category, k = ⟨.range .id (.among vs) category, false⟩ := by
    unfold Draft.idList? at hlist
    split at hlist
    next us category =>
      obtain rfl := Option.some.inj hlist
      exact ⟨category, rfl⟩
    next => cases hlist
  unfold Term.conditions at hk
  split at hk
  next hkind =>
    split at hk
    next effect heffect =>
      obtain ⟨p, hp, heq⟩ := Option.map_eq_some_iff.1 (Option.mem_toList.1 hk)
      obtain ⟨rfl, hpolarity⟩ := Condition.mk.inj heq
      obtain ⟨hname, hread⟩ := Registry.of_evaluate_range_id heffect hp
      obtain ⟨ids, rfl, hids⟩ := readRange_eq_among_iff.1 hread
      exact ⟨ids, rfl, hkind, (hlower hkind).symm.trans hname, by simpa using hpolarity, hids⟩
    next => exact absurd hk List.not_mem_nil
  next => exact absurd hk List.not_mem_nil

end Terms

/-- What is found first from the end, in what some items contribute, is found in what one of them
contributes, and in nothing that the later ones do. -/
theorem last_of_findSome?_reverse {α β γ : Type} {f : β → Option γ} {items : α → List β} {xs : List α}
    {c : γ} (h : (xs.flatMap items).reverse.findSome? f = some c) :
    ∃ before x after, xs = before ++ x :: after ∧ (∃ b ∈ items x, f b = some c) ∧
      ∀ y ∈ after, ∀ b ∈ items y, f b = none := by
  induction xs using List.reverseRecOn with
  | nil => cases h
  | append_singleton xs x ih =>
    rw [List.flatMap_append, List.flatMap_singleton, List.reverse_append, List.findSome?_append] at h
    rcases Option.or_eq_some_iff.1 h with hlast | ⟨hnone, hearlier⟩
    · obtain ⟨b, hb, hfound⟩ := List.exists_of_findSome?_eq_some hlast
      exact ⟨xs, x, [], rfl, ⟨b, List.mem_reverse.1 hb, hfound⟩, nofun⟩
    · obtain ⟨before, y, after, rfl, hy, hafter⟩ := ih hearlier
      refine ⟨before, y, after ++ [x], by simp, hy, fun z hz b hb => ?_⟩
      rcases List.mem_append.1 hz with hz | hz
      · exact hafter z hz b hb
      · obtain rfl := List.mem_singleton.1 hz
        exact List.findSome?_eq_none_iff.1 hnone b (List.mem_reverse.2 hb)

/-- The metatag terms of a query have names in lower case. -/
theorem lowerString_name_of_readTerms {config : Config} {query : String} {ts : List Term} {t : Term}
    (hread : readTerms config query = .ok ts) (ht : t ∈ ts) (hkind : t.kind = .metatag) :
    lowerString t.name = t.name := by
  obtain ⟨tokens, -, rfl⟩ := exists_of_map_eq_ok hread
  obtain ⟨token, -, rfl⟩ := List.mem_map.1 ht
  exact (name_classifyToken hkind).2

/-- A custom order is the list that is found first from the end of the conditions. -/
theorem Draft.finalOrder_custom {o : Option Order} {conditions : List Condition}
    (hcustom : (Draft.finalOrder o conditions).key = .custom) :
    ∃ vs, Draft.finalOrder o conditions = ⟨.custom, .asc, vs⟩ ∧
      conditions.reverse.findSome? Draft.idList? = some vs := by
  unfold Draft.finalOrder at hcustom ⊢
  split at hcustom
  next => cases hcustom
  next o =>
    split at hcustom
    next hkey =>
      split at hcustom
      next vs hvs => exact ⟨vs, if_pos hkey, hvs⟩
      next => cases hcustom
    next hkey => exact absurd hcustom hkey

/-- A custom order is the list of the last term that lists ids. -/
theorem Draft.Extends.custom_finish {config : Config} {resolve : String → String} {viewer : Viewer}
    {now : Moment} {ts : List Term} {d : Draft} {query : String}
    (h : Draft.Extends config resolve viewer now .empty ts d)
    (hlower : ∀ t ∈ ts, t.kind = .metatag → lowerString t.name = t.name)
    (hcustom : (d.finish viewer query).order.key = .custom) :
    ∃ ids : List Int, (d.finish viewer query).order = ⟨.custom, .asc, ids.map .integer⟩ ∧
      IsLastIdList ts ids := by
  obtain ⟨vs, horder, hfound⟩ := Draft.finalOrder_custom hcustom
  have hviewer : (Draft.viewerConditions viewer d.showsDeleted).reverse.findSome? Draft.idList? =
      none := by
    refine List.findSome?_eq_none_iff.2 fun k hk => ?_
    rcases Draft.cases_of_mem_viewerConditions (List.mem_reverse.1 hk) with rfl | rfl <;> rfl
  rw [List.reverse_append, List.findSome?_append, hviewer, Option.none_or, h.conditions,
    Draft.empty, List.nil_append] at hfound
  obtain ⟨before, t, after, rfl, ⟨k, hk, hlist⟩, hafter⟩ := last_of_findSome?_reverse hfound
  obtain ⟨ids, rfl, hids⟩ := Term.exists_listsIds (hlower t (by simp)) hk hlist
  refine ⟨ids, horder, before, t, after, rfl, hids, fun u hu others hothers => ?_⟩
  obtain ⟨k', hk', hlist'⟩ : ∃ k ∈ u.conditions config viewer now,
      Draft.idList? k = some (others.map .integer) := hothers.exists_idList?
  rw [hafter u hu k' hk'] at hlist'
  cases hlist'

end Query

end Imageboard
