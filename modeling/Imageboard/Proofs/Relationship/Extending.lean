import Imageboard.Proofs.Relationship.Reaching
import Imageboard.Proofs.Relationship.Renaming
import Imageboard.Proofs.Tagging.Spreading

/-!
# Approving an implication puts tags on posts

An approved implication puts its consequent, and all that this implies, on the posts that carry its
antecedent. What is implied is found once, in the graph that has the new implication already. If each
post had what the implications in force before called for, it then has what those in force after call
for, and no post has gained more than that.
-/

namespace Imageboard

namespace Contents

/-- Every post that carries the antecedent of an implication in force carries its consequent. -/
def Saturated (c : Contents) : Prop :=
  ∀ p ∈ c.posts, ∀ e ∈ c.inForce .implication, e.1 ∈ c.tagNames p.id → e.2 ∈ c.tagNames p.id

instance (c : Contents) : Decidable c.Saturated :=
  inferInstanceAs (Decidable (∀ p ∈ c.posts, ∀ e ∈ c.inForce .implication, _ → _))

/-- The contents after an implication has been approved: it is in force, and the posts that carried its
antecedent have gained what they lacked of its consequent and of what this implies. Every post is
saturated again, post counts are right, the posts that carried the antecedent are stamped, and nothing
else is different. -/
structure ImpliedTo (general : Int) (stamp : Value) (antecedent consequent : String)
    (c d : Contents) : Prop where
  implications : ∀ p, p ∈ d.inForce .implication ↔
    p ∈ c.inForce .implication ∨ p = (antecedent, consequent)
  saturated : d.Saturated
  tagNames : ∀ postId x, x ∈ d.tagNames postId ↔ x ∈ c.tagNames postId ∨
    antecedent ∈ c.tagNames postId ∧
      (x = consequent ∨ d.implicationGraph.Reaches consequent x)
  changed : ∀ postId, d.tagNames postId ≠ c.tagNames postId ↔ antecedent ∈ c.tagNames postId ∧
    ∃ x, (x = consequent ∨ d.implicationGraph.Reaches consequent x) ∧ x ∉ c.tagNames postId
  counted : d.Counted
  categories : ∀ name, d.categoryOf general name = c.categoryOf general name
  posts : d.posts = c.posts.map fun p =>
    if antecedent ∈ c.tagNames p.id then { p with updatedAt := stamp } else p
  elsewhere : { d with
    tags := c.tags
    posts := c.posts
    taggings := c.taggings
    implications := c.implications } = c

end Contents

namespace Relationship

open Store Work Contents

variable {s₀ : Store} {c d : Contents} {r : Relationship} {approverId : Option Int}

/-- The graph of the implications in force is read. -/
theorem attains_implicationGraph (hwhole : c.missing = []) :
    Attains s₀ c implicationGraph fun g d => g = c.implicationGraph ∧ d = c := by
  refine (attains_read hwhole rfl _).bind ?_
  rintro rs d ⟨rfl, rfl⟩
  exact attains_pure ⟨rfl, rfl⟩

/-- There are no more implications in force than there are implications. -/
theorem length_edges_le (c : Contents) :
    c.implicationGraph.edges.length ≤ c.implications.length := by
  rw [Contents.implicationGraph, List.length_map, Contents.activeRelationships, List.length_mergeSort]
  exact List.length_filter_le _ _

/-- The implication is put into force, tags are made, and what it implies is put on posts, all without
fail. -/
theorem attains_approveImplication (hc : c.Sound) (hfit : c.TagsFit (c.implications.length + 3))
    (hgeneral : (Value.integer s₀.categories.generalCode).fits)
    (happrover : (Value.ofInteger? approverId).fits) (hr : r ∈ c.implications)
    (hantecedent : TagName.Storable r.antecedent) (hconsequent : TagName.Storable r.consequent)
    (hnames : ∀ p ∈ c.inForce .implication, TagName.Storable p.2)
    (hnew : (r.antecedent, r.consequent) ∉ c.inForce .implication) :
    Attains s₀ c (approveImplication r approverId) fun n d => n = c.carrierCount r.antecedent ∧
      ∃ f, Relationship.Settles .active f ∧
        let e := c.mapRelationships .implication (·.id = r.id) f
        Extended s₀.categories.generalCode s₀.stamp r.antecedent
          (r.consequent :: e.implicationGraph.implied r.consequent) e d := by
  have hfree : ∀ q ∈ c.implications, clashes .implication { r with status := .active } q = false := by
    intro q hq
    by_contra hclash
    simp only [clashes, Bool.not_eq_false, Bool.and_eq_true, Bool.or_eq_true,
      decide_eq_true_eq] at hclash
    obtain ⟨⟨⟨-, hactive⟩, hfirst⟩, hsecond⟩ := hclash
    have hsame := hsecond.resolve_left (by simp)
    exact hnew (mem_inForce.2 ⟨q, hq, hactive, Prod.ext hfirst.symm hsame.symm⟩)
  refine (attains_setRelationshipStatus hc.whole hc.implications hr (hc.implicationsFit r hr) happrover
    rfl hfree).bind ?_
  rintro ⟨⟩ e ⟨f, hf, -, rfl⟩
  generalize he : c.mapRelationships .implication (·.id = r.id) f = e
  have hwhole : e.missing = [] := he ▸ hc.whole
  have hrules : e.TagRules := hc.toTagRules.congr (he ▸ rfl) (he ▸ rfl) (he ▸ rfl)
  have hfit' : e.TagsFit (c.implications.length + 3) := he ▸ ⟨hfit.ids, hfit.categories, hfit.next⟩
  have hinForce : ∀ p, p ∈ e.inForce .implication ↔
      p ∈ c.inForce .implication ∨ p = (r.antecedent, r.consequent) :=
    fun p => he ▸ mem_inForce_activate hc.implications hf hr
  have hlength : (r.consequent :: e.implicationGraph.implied r.consequent).length ≤
      c.implications.length + 1 := by
    have hsame : e.implications.length = c.implications.length := by
      rw [← he]
      exact List.length_map _
    exact Nat.succ_le_succ (hsame ▸ Nat.le_trans (e.implicationGraph.length_implied_le _)
      (length_edges_le e))
  have hstorable : ∀ x ∈ r.consequent :: e.implicationGraph.implied r.consequent,
      TagName.Storable x := by
    refine List.forall_mem_cons.2 ⟨hconsequent, fun x hx => ?_⟩
    obtain ⟨y, hedge⟩ := (Graph.mem_implied.1 hx).2.exists_edge
    rcases (hinForce _).1 (mem_edges_implicationGraph.1 hedge) with hedge | heq
    · exact hnames _ hedge
    · obtain ⟨-, rfl⟩ := Prod.mk.inj heq
      exact hconsequent
  refine (attains_findOrCreateTag hwhole hantecedent hgeneral).bind ?_
  rintro old e₁ ⟨he₁, hold⟩
  have hmade₁ : Spread s₀.categories.generalCode r.antecedent [] e e₁ :=
    he₁ ▸ hrules.spread_withTag _ _ _
  refine (attains_findOrCreateTag (hmade₁.missing.trans hwhole) hconsequent hgeneral).bind ?_
  rintro new e₂ ⟨he₂, -⟩
  have hmade : Spread s₀.categories.generalCode r.antecedent [] e e₂ :=
    hmade₁.trans (he₂ ▸ hmade₁.rules.spread_withTag _ _ _)
  have hold₂ : e₂.findTag? r.antecedent = some old := by
    obtain ⟨hmem, hname⟩ := hmade₁.rules.findTag?_eq_some_iff.1 hold
    have hsub : e₁.tags ⊆ e₂.tags := (he₂ ▸ hmade₁.rules.spread_withTag r.antecedent _ _ :
      Spread s₀.categories.generalCode r.antecedent [] e₁ e₂).tags
    exact hmade.rules.findTag?_eq_some_iff.2 ⟨hsub hmem, hname⟩
  have hfit₂ : e₂.TagsFit (c.implications.length + 1) := by
    have hfit₁ : e₁.TagsFit (c.implications.length + 2) := he₁ ▸ hfit'.withTag hgeneral
    exact he₂ ▸ hfit₁.withTag hgeneral
  have hgraph : e₂.implicationGraph = e.implicationGraph :=
    (congrArg Contents.implicationGraph hmade.elsewhere :)
  refine (attains_implicationGraph (hmade.missing.trans hwhole)).bind ?_
  rintro g d ⟨rfl, rfl⟩
  rw [hgraph]
  have hposts : d.posts = c.posts := hmade.posts.trans (he ▸ rfl)
  refine (attains_addTagsToPostsWith (hmade.missing.trans hwhole) hmade.rules hold₂ hstorable
    (List.cons_ne_nil _ _) hgeneral (hfit₂.mono hlength) (hposts ▸ hc.postsFit)).imp ?_
  rintro n d' ⟨rfl, hextended⟩
  have hsame : d.tagNames = c.tagNames := by
    have hmadeNames : d.tagNames = e.tagNames := by
      funext postId
      ext x
      simpa using hmade.tagNames postId x
    exact hmadeNames.trans (tagNames_congr (he ▸ rfl) (he ▸ rfl))
  refine ⟨by rw [carrierCount, carrierCount, hposts, hsame], f, hf, ?_⟩
  rw [he]
  exact hextended.of_spread hmade

/-- Where every post was saturated, putting the consequent and what it implies on the posts that carried
the antecedent makes every post saturated for the new implication too. -/
theorem saturated_of_extended {e d : Contents} {general : Int} {stamp : Value}
    {antecedent consequent : String} (hc : c.Saturated) (htagNames : e.tagNames = c.tagNames)
    (hposts : e.posts = c.posts)
    (hinForce : ∀ p, p ∈ e.inForce .implication ↔
      p ∈ c.inForce .implication ∨ p = (antecedent, consequent))
    (hd : Extended general stamp antecedent
      (consequent :: e.implicationGraph.implied consequent) e d) : d.Saturated := by
  have hkept : d.inForce .implication = e.inForce .implication :=
    (congrArg (fun b : Contents => b.inForce .implication) hd.elsewhere :)
  rintro p hp ⟨a, b⟩ hedge ha
  obtain ⟨q, hq, hid⟩ : ∃ q ∈ c.posts, q.id = p.id := by
    rw [hd.posts, hposts] at hp
    obtain ⟨q, hq, rfl⟩ := List.mem_map.1 hp
    exact ⟨q, hq, by split <;> rfl⟩
  have hmem : (a, b) ∈ e.implicationGraph.edges := mem_edges_implicationGraph.2 (hkept ▸ hedge)
  rw [hd.tagNames, htagNames, ← hid, List.mem_cons, Graph.mem_implied] at ha ⊢
  -- What is reached from the consequent stays reached along one more edge.
  have hreached (hcarries : antecedent ∈ c.tagNames q.id)
      (hreach : e.implicationGraph.Reaches consequent b) : b ∈ c.tagNames q.id ∨
        antecedent ∈ c.tagNames q.id ∧
          (b = consequent ∨ b ≠ consequent ∧ e.implicationGraph.Reaches consequent b) := by
    by_cases hb : b = consequent
    · exact Or.inr ⟨hcarries, Or.inl hb⟩
    · exact Or.inr ⟨hcarries, Or.inr ⟨hb, hreach⟩⟩
  rcases ha with ha | ⟨hcarries, rfl | ⟨-, hreach⟩⟩
  · rcases (hinForce _).1 (hkept ▸ hedge) with hold | heq
    · exact Or.inl (hc q hq _ hold ha)
    · obtain ⟨rfl, rfl⟩ := Prod.mk.inj heq
      exact Or.inr ⟨ha, Or.inl rfl⟩
  · exact hreached hcarries (.edge hmem)
  · exact hreached hcarries (hreach.trans (.edge hmem))

/-- Putting what an implication calls for on posts completes its approval. -/
theorem impliedTo_of_extended {d : Contents} {f : Relationship → Relationship} {general : Int}
    {stamp : Value} (hc : c.Sound) (hsaturated : c.Saturated) (hr : r ∈ c.implications)
    (hf : Relationship.Settles .active f)
    (hd : Extended general stamp r.antecedent (r.consequent ::
      (c.mapRelationships .implication (·.id = r.id) f).implicationGraph.implied r.consequent)
      (c.mapRelationships .implication (·.id = r.id) f) d)
    (hcounted : d.Counted) : c.ImpliedTo general stamp r.antecedent r.consequent d := by
  generalize he : c.mapRelationships .implication (·.id = r.id) f = e at hd
  have htagNames : e.tagNames = c.tagNames := tagNames_congr (he ▸ rfl) (he ▸ rfl)
  have hposts : e.posts = c.posts := he ▸ rfl
  have hinForce : ∀ p, p ∈ e.inForce .implication ↔
      p ∈ c.inForce .implication ∨ p = (r.antecedent, r.consequent) :=
    fun p => he ▸ mem_inForce_activate hc.implications hf hr
  have hkept : d.inForce .implication = e.inForce .implication :=
    (congrArg (fun b : Contents => b.inForce .implication) hd.elsewhere :)
  have hgraph : d.implicationGraph = e.implicationGraph :=
    (congrArg Contents.implicationGraph hd.elsewhere :)
  have hnames : ∀ postId x, x ∈ d.tagNames postId ↔ x ∈ c.tagNames postId ∨
      r.antecedent ∈ c.tagNames postId ∧
        (x = r.consequent ∨ d.implicationGraph.Reaches r.consequent x) := by
    intro postId x
    rw [hd.tagNames, htagNames, hgraph, List.mem_cons, Graph.mem_implied]
    tauto
  exact {
    implications := fun p => by rw [hkept, hinForce]
    saturated := saturated_of_extended hsaturated htagNames hposts hinForce hd
    tagNames := hnames
    changed := fun postId => by
      rw [Ne, Finset.ext_iff, not_forall]
      simp only [hnames]
      constructor
      · rintro ⟨x, hx⟩
        exact ⟨by tauto, x, by tauto⟩
      · rintro ⟨hcarries, x, hreach, hlacks⟩
        exact ⟨x, by tauto⟩
    counted := hcounted
    categories := fun name => (hd.categories name).trans (by rw [← he]; rfl)
    posts := by rw [hd.posts, htagNames, hposts]
    elsewhere := by
      subst he
      exact congrArg (fun b : Contents => { b with implications := c.implications }) hd.elsewhere }

/-- Approving an implication that is not in force yet succeeds and puts it into force: every post is
saturated again, and exactly the posts that carried the antecedent and lacked some of what it calls for
have changed their tags, by gaining that. The result is the number of posts that carried the
antecedent. -/
theorem runOn_approveImplication {s : Store} (hc : s.contents.Sound) (hcounted : s.contents.Counted)
    (hsaturated : s.contents.Saturated)
    (hfit : s.contents.TagsFit (s.contents.implications.length + 3))
    (hgeneral : (Value.integer s.categories.generalCode).fits)
    (happrover : (Value.ofInteger? approverId).fits) (hfree : s.heldElsewhere = false)
    (hr : r ∈ s.contents.implications) (hantecedent : TagName.Storable r.antecedent)
    (hconsequent : TagName.Storable r.consequent)
    (hnames : ∀ p ∈ s.contents.inForce .implication, TagName.Storable p.2)
    (hnew : (r.antecedent, r.consequent) ∉ s.contents.inForce .implication) :
    ∃ n t, (approveImplication r approverId).runOn s = (.ok n, t) ∧ t.setting = s.setting ∧
      n = s.contents.carrierCount r.antecedent ∧
      s.contents.ImpliedTo s.categories.generalCode s.stamp r.antecedent r.consequent t.contents := by
  have hrun :=
    attains_approveImplication hc hfit hgeneral happrover hr hantecedent hconsequent hnames hnew
  have hkeeps : Keeps (CountedBut []) (approveImplication r approverId) :=
    keeps_approveImplication taggingKeeps_counted
      (relationshipKeeps_of_ignores fun _ _ hc => hc.congr rfl rfl) r approverId
  have hstart : CountedBut [] s.contents := countedBut_nil_iff.2 ⟨hc.toTaggingRules, hcounted⟩
  obtain ⟨n, t, hok, hsetting, ⟨hn, f, hf, hextended⟩, hend⟩ :=
    hrun.and_leads hkeeps.leads hstart s (.refl hfree) rfl
  exact ⟨n, t, hok, hsetting, hn,
    impliedTo_of_extended hc hsaturated hr hf hextended (countedBut_nil_iff.1 hend).2⟩

/-- Contents in which cats are animals, one post shows a kitten and another one a kitten, a cat and an
animal. -/
def litterContents : Contents :=
  { Contents.empty with
    tags := [⟨1, "kitten", 0, 2, .null, .null⟩, ⟨2, "cat", 0, 1, .null, .null⟩,
      ⟨3, "animal", 0, 1, .null, .null⟩]
    posts := [PostDraft.toPost {} 1 .null, PostDraft.toPost {} 2 .null]
    taggings := [⟨1, 1⟩, ⟨2, 1⟩, ⟨2, 2⟩, ⟨2, 3⟩]
    implications := [⟨1, "cat", "animal", .active, none, none, none, .null, .null⟩,
      pendingKitten] }

/-- The contents are sound. -/
theorem sound_litterContents : litterContents.Sound where
  distinct := by decide
  refers := by decide
  tagIds := by decide
  tagNames := by decide
  postIds := by decide
  refersToPosts := by decide
  whole := rfl
  aliases := by decide
  implications := by decide
  postsFit := by decide
  aliasesFit := by decide
  implicationsFit := by decide

/-- Kittens become cats and animals. -/
theorem runOn_approveImplication_kitten :
    let s : Store := .ofContents litterContents ⟨0, 0⟩ .standard
    ∃ n t, (approveImplication pendingKitten none).runOn s = (.ok n, t) ∧
      t.setting = s.setting ∧ n = litterContents.carrierCount "kitten" ∧
      litterContents.ImpliedTo 0 s.stamp "kitten" "cat" t.contents :=
  runOn_approveImplication sound_litterContents (by decide) (by decide)
    ⟨by decide, by decide, by decide⟩ (by decide) (by decide) rfl (by decide) (by decide) (by decide)
    (by decide) (by decide)

end Relationship

end Imageboard
