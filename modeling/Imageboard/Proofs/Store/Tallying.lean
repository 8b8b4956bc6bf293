import Imageboard.Proofs.Store.Collecting
import Imageboard.Proofs.Store.Leading
import Imageboard.Proofs.Store.Sparing
import Imageboard.Proofs.Tagging.Counts
import Imageboard.Proofs.Tagging.Keeping
import Imageboard.Store.Maintenance
import Mathlib.Algebra.BigOperators.Group.List.Basic
import Mathlib.Algebra.Ring.Int.Defs

/-!
# Votes and favourites are tallied exactly

A post keeps the sum of its votes, which is taken anew at each vote, and the number of users who favour it,
which is counted on when a favourite is new. Each is changed in one block with the record that it is about,
so the two stay in step whichever calls fail. What users have last voted is told from outside, by the calls
that succeeded.
-/

namespace Imageboard

/-- A vote as it is cast. -/
structure Ballot where
  userId : Int
  postId : Int
  score : Int
  deriving DecidableEq, Repr

/-- The score that a user gave a post last, of ballots with the latest first. -/
def lastScore? (cast : List Ballot) (postId userId : Int) : Option Int :=
  (cast.find? fun b => b.postId = postId && b.userId = userId).map (·.score)

/-- The latest ballot counts for its user and post, and those before it for all others. -/
theorem lastScore?_cons (b : Ballot) (cast : List Ballot) (postId userId : Int) :
    lastScore? (b :: cast) postId userId =
      if b.postId = postId ∧ b.userId = userId then some b.score else lastScore? cast postId userId := by
  by_cases hb : b.postId = postId ∧ b.userId = userId
  · rw [if_pos hb, lastScore?, List.find?_cons_of_pos (by simpa using hb), Option.map_some]
  · rw [if_neg hb, lastScore?, List.find?_cons_of_neg (by simpa using hb), lastScore?]

namespace Contents

/-- The sum of the votes on a post. -/
def voteSum (c : Contents) (postId : Int) : Int :=
  ((c.votes.filter (·.postId = postId)).map (·.score)).sum

/-- The scores that a user has given a post. -/
def scoresBy (c : Contents) (postId userId : Int) : List Int :=
  (c.votes.filter fun v => v.postId = postId && v.userId = userId).map (·.score)

/-- The number of users who favour a post. -/
def fanCount (c : Contents) (postId : Int) : Nat :=
  c.users.countP fun u => c.favorites.any fun f => f.userId = u.id && f.postId = postId

/-- Votes and favourites refer to users and posts that are there, and the posts have them tallied; each user
has on each post the vote of the last ballot, if there is one. -/
structure Tallied (cast : List Ballot) (c : Contents) : Prop where
  userIds : (c.users.map (·.id)).Nodup
  votesRefer : ∀ v ∈ c.votes, c.refersToPost v.postId
  favoritesRefer : ∀ f ∈ c.favorites, c.favoriteRefers f
  score_eq : ∀ p ∈ c.posts, (∃ v ∈ c.votes, v.postId = p.id) → p.score = c.voteSum p.id
  favCount_eq : ∀ p ∈ c.posts, p.favCount = c.fanCount p.id
  scoresBy_eq : ∀ postId userId, c.scoresBy postId userId = (lastScore? cast postId userId).toList

variable {cast : List Ballot} {c d m : Contents} {userId postId score : Int} {stamp : Value}

/-! ## Sums and counts -/

/-- A sum that is not too large on the way is the sum. -/
theorem sumScores?_eq_some {start sum : Int} {scores : List Int}
    (h : sumScores? start scores = some sum) : sum = start + scores.sum := by
  induction scores generalizing start with
  | nil => simpa [sumScores?, eq_comm] using h
  | cons score rest ih =>
    rw [sumScores?] at h
    split at h
    · rw [ih h, List.sum_cons, Int.add_assoc]
    · contradiction

/-- The order of the voters does not matter to the sum. -/
theorem sum_scoresOf (c : Contents) (postId : Int) : (c.scoresOf postId).sum = c.voteSum postId :=
  ((List.mergeSort_perm _ _).map _).sum_eq

/-- Among users with distinct ids, one more is counted if exactly one is counted beside the others. -/
theorem countP_beside {users : List User} {counted : User → Bool} {id : Int}
    (hids : (users.map (·.id)).Nodup) (hmem : ∃ u ∈ users, u.id = id)
    (hnot : ∀ u ∈ users, u.id = id → counted u = false) :
    (users.countP fun u => counted u || u.id = id) = users.countP counted + 1 := by
  induction users with
  | nil => simp at hmem
  | cons first rest ih =>
    obtain ⟨hfirst, hrest⟩ := List.nodup_cons.1 hids
    have hnotRest : ∀ u ∈ rest, u.id = id → counted u = false :=
      fun u hu => hnot u (List.mem_cons_of_mem _ hu)
    by_cases heq : first.id = id
    · have hothers : ∀ u ∈ rest, u.id ≠ id :=
        fun u hu hid => hfirst (List.mem_map.2 ⟨u, hu, hid.trans heq.symm⟩)
      have hsame : (rest.countP fun u => counted u || u.id = id) = rest.countP counted :=
        List.countP_congr fun u hu => by simp [hothers u hu]
      rw [List.countP_cons, List.countP_cons, hsame, hnot first List.mem_cons_self heq]
      simp [heq]
    · have hmemRest : ∃ u ∈ rest, u.id = id := by simpa [heq] using hmem
      rw [List.countP_cons, List.countP_cons, ih hrest hmemRest hnotRest]
      simp only [heq, decide_false, Bool.or_false]
      omega

/-! ## Users and posts -/

/-- A reference finds a post by its id. -/
theorem refersToPost_iff {id : Int} : c.refersToPost id ↔ ∃ p ∈ c.posts, p.id = id := by
  simp [refersToPost]

/-- A favourite refers to a user and a post. -/
theorem favoriteRefers_iff {f : Favorite} :
    c.favoriteRefers f ↔ (∃ u ∈ c.users, u.id = f.userId) ∧ ∃ p ∈ c.posts, p.id = f.postId := by
  simp [favoriteRefers, refersToUser, refersToPost]

/-- A new user favours nothing yet. -/
theorem Tallied.addUser (h : Tallied cast c) {name : String} {id : Int}
    (hd : c.addUser name stamp = .ok (id, d)) : Tallied cast d := by
  obtain ⟨rfl, rfl⟩ := addUser_eq_ok hd
  have hnew : ∀ f ∈ c.favorites, f.userId ≠ nextId (c.users.map (·.id)) := by
    rintro f hf heq
    obtain ⟨⟨u, hu, hid⟩, -⟩ := favoriteRefers_iff.1 (h.favoritesRefer f hf)
    exact nextId_not_mem (List.mem_map.2 ⟨u, hu, hid.trans heq⟩)
  refine ⟨?_, h.votesRefer, fun f hf => ?_, h.score_eq, fun p hp => ?_, h.scoresBy_eq⟩
  · rw [List.map_append]
    exact List.nodup_append_comm.1 (List.nodup_cons.2 ⟨nextId_not_mem, h.userIds⟩)
  · obtain ⟨⟨u, hu, hid⟩, hpost⟩ := favoriteRefers_iff.1 (h.favoritesRefer f hf)
    exact favoriteRefers_iff.2 ⟨⟨u, List.mem_append_left _ hu, hid⟩, hpost⟩
  · rw [h.favCount_eq p hp, fanCount, fanCount, List.countP_append, List.countP_singleton, if_neg]
    · rfl
    · simp only [List.any_eq_true, Bool.and_eq_true, decide_eq_true_eq, not_exists, not_and]
      exact fun f hf hid => absurd hid (hnew f hf)

/-- A new post has no votes and no favourites yet. -/
theorem Tallied.addPost (h : Tallied cast c) {draft : PostDraft} (hfav : draft.favCount = 0) {id : Int}
    (hd : c.addPost draft stamp = .ok (id, d)) : Tallied cast d := by
  obtain ⟨hnew, rfl⟩ := addPost_eq_ok hd
  have hkept {other : Int} (hpost : c.refersToPost other) :
      ∃ p ∈ c.posts ++ [draft.toPost id stamp], p.id = other := by
    obtain ⟨p, hp, hid⟩ := refersToPost_iff.1 hpost
    exact ⟨p, List.mem_append_left _ hp, hid⟩
  refine ⟨h.userIds, fun v hv => refersToPost_iff.2 (hkept (h.votesRefer v hv)), fun f hf => ?_,
    fun p hp hvoted => ?_, fun p hp => ?_, h.scoresBy_eq⟩
  · obtain ⟨huser, hpost⟩ := favoriteRefers_iff.1 (h.favoritesRefer f hf)
    exact favoriteRefers_iff.2 ⟨huser, hkept (refersToPost_iff.2 hpost)⟩
  · rcases List.mem_append.1 hp with hp | hp
    · exact h.score_eq p hp hvoted
    · obtain rfl := List.mem_singleton.1 hp
      obtain ⟨v, hv, hid⟩ := hvoted
      obtain ⟨q, hq, hsame⟩ := refersToPost_iff.1 (h.votesRefer v hv)
      exact absurd (hsame.trans hid) (hnew q hq)
  · rcases List.mem_append.1 hp with hp | hp
    · exact h.favCount_eq p hp
    · obtain rfl := List.mem_singleton.1 hp
      have hnone : c.fanCount id = 0 := by
        refine List.countP_eq_zero.2 fun u _ => ?_
        simp only [List.any_eq_true, Bool.and_eq_true, decide_eq_true_eq, not_exists, not_and]
        intro f hf _ hid
        obtain ⟨-, q, hq, hsame⟩ := favoriteRefers_iff.1 (h.favoritesRefer f hf)
        exact hnew q hq (hsame.trans hid)
      calc (draft.toPost id stamp).favCount
        _ = 0 := hfav
        _ = c.fanCount id := by rw [hnone]; rfl

section MapPosts

variable {q : Post → Bool} {f : Post → Post}

/-- Changes of posts that leave their ids alone break no reference. -/
theorem refersToPost_mapPosts (hid : ∀ p, (f p).id = p.id) (id : Int) :
    (c.mapPosts q f).refersToPost id = c.refersToPost id := by
  rw [refersToPost, mapPosts, List.any_map]
  congr 1
  funext p
  dsimp only [Function.comp]
  split
  · rw [hid]
  · rfl

/-- A post after a change of some is a changed one or one that was there. -/
theorem of_mem_mapPosts {p : Post} (hp : p ∈ (c.mapPosts q f).posts) :
    ∃ r ∈ c.posts, q r = true ∧ p = f r ∨ q r = false ∧ p = r := by
  obtain ⟨r, hr, rfl⟩ := List.mem_map.1 hp
  refine ⟨r, hr, ?_⟩
  cases hq : q r with
  | true => exact Or.inl ⟨rfl, rfl⟩
  | false => exact Or.inr ⟨rfl, rfl⟩

/-- Posts that keep their ids and tallies are tallied as before. -/
theorem Tallied.mapPosts (h : Tallied cast c) (hid : ∀ p, (f p).id = p.id)
    (hscore : ∀ p, (f p).score = p.score) (hfav : ∀ p, (f p).favCount = p.favCount) :
    Tallied cast (c.mapPosts q f) where
  userIds := h.userIds
  votesRefer v hv := (refersToPost_mapPosts hid _).trans (h.votesRefer v hv)
  favoritesRefer g hg := by
    rw [favoriteRefers, refersToPost_mapPosts hid]
    exact h.favoritesRefer g hg
  score_eq p hp hvoted := by
    obtain ⟨r, hr, ⟨-, rfl⟩ | ⟨-, rfl⟩⟩ := of_mem_mapPosts hp
    · rw [hid] at hvoted ⊢
      exact (hscore r).trans (h.score_eq r hr hvoted)
    · exact h.score_eq p hr hvoted
  favCount_eq p hp := by
    obtain ⟨r, hr, ⟨-, rfl⟩ | ⟨-, rfl⟩⟩ := of_mem_mapPosts hp
    · rw [hid]
      exact (hfav r).trans (h.favCount_eq r hr)
    · exact h.favCount_eq p hr
  scoresBy_eq := h.scoresBy_eq

end MapPosts

/-! ## Favourites and votes -/

/-- A user who favours a post is one more of those who do, and of no other post. -/
theorem fanCount_append {f : Favorite} (hids : (c.users.map (·.id)).Nodup)
    (huser : ∃ u ∈ c.users, u.id = f.userId)
    (hnew : ∀ g ∈ c.favorites, g.userId = f.userId → g.postId ≠ f.postId) (postId : Int) :
    fanCount { c with favorites := c.favorites ++ [f] } postId =
      if f.postId = postId then c.fanCount postId + 1 else c.fanCount postId := by
  simp only [fanCount, List.any_append, List.any_cons, List.any_nil, Bool.or_false]
  split
  next hpost =>
    have hnot : ∀ u ∈ c.users, u.id = f.userId →
        (c.favorites.any fun g => g.userId = u.id && g.postId = postId) = false := by
      intro u _ hid
      simp only [List.any_eq_false, Bool.and_eq_true, decide_eq_true_eq, not_and]
      exact fun g hg hsame => hpost ▸ hnew g hg (hsame.trans hid)
    rw [← countP_beside hids huser hnot]
    refine List.countP_congr fun u _ => ?_
    rw [decide_eq_true hpost, Bool.and_true, decide_eq_decide.2 (eq_comm (b := u.id))]
  next hpost => simp [hpost]

/-- A favourite that is new adds the user to those who favour the post. -/
theorem Tallied.favor (h : Tallied cast c) (hd : c.addFavorite userId postId stamp = .ok (true, m)) :
    Tallied cast (m.countFavorite postId) := by
  obtain ⟨hfalse, -⟩ | ⟨-, hnew, huser, hpost, rfl⟩ := addFavorite_eq_ok hd
  · cases hfalse
  have hfans := fanCount_append (f := ⟨nextId (c.favorites.map (·.id)), userId, postId, stamp⟩)
    h.userIds (by simpa [refersToUser] using huser) hnew
  refine ⟨h.userIds, fun v hv => ?_, fun f hf => ?_, fun p hp hvoted => ?_, fun p hp => ?_, h.scoresBy_eq⟩
  · exact (refersToPost_mapPosts (by intro _; rfl) _).trans (h.votesRefer v hv)
  · rw [favoriteRefers, countFavorite, refersToPost_mapPosts (by intro _; rfl)]
    rcases List.mem_append.1 hf with hf | hf
    · exact h.favoritesRefer f hf
    · obtain rfl := List.mem_singleton.1 hf
      exact Bool.and_eq_true_iff.2 ⟨huser, hpost⟩
  · obtain ⟨r, hr, ⟨-, rfl⟩ | ⟨-, rfl⟩⟩ := of_mem_mapPosts hp
    · exact h.score_eq r hr hvoted
    · exact h.score_eq p hr hvoted
  · obtain ⟨r, hr, ⟨hq, rfl⟩ | ⟨hq, rfl⟩⟩ := of_mem_mapPosts hp
    · have hpost : postId = r.id := by simpa [eq_comm] using hq
      have hmore := hfans r.id
      rw [if_pos hpost] at hmore
      refine Eq.trans ?_ (congrArg Nat.cast hmore).symm
      rw [Int.natCast_add, ← h.favCount_eq r hr]
      rfl
    · have hpost : postId ≠ p.id := by simpa [eq_comm] using hq
      have hsame := hfans p.id
      rw [if_neg hpost] at hsame
      exact (h.favCount_eq p hr).trans (congrArg Nat.cast hsame).symm

/-- Of the votes other than those of a user on a post, none changes when the vote of the user on the post is
set. -/
theorem filter_votes_setVote (hset : c.setVote postId userId score stamp = .ok ((), m))
    {q : Vote → Bool} (hq : ∀ v, v.postId = postId → v.userId = userId → q v = false) :
    m.votes.filter q = c.votes.filter q := by
  obtain ⟨-, -, rfl⟩ := setVote_eq_ok hset
  have hthis : q ⟨postId, userId, score, stamp⟩ = false := hq _ rfl rfl
  rw [List.filter_append, List.filter_singleton, hthis, cond_false, List.append_nil, List.filter_filter]
  refine List.filter_congr fun v _ => ?_
  by_cases hsame : v.postId = postId ∧ v.userId = userId
  · rw [hq v hsame.1 hsame.2, Bool.false_and]
  · have hkept : (!(decide (v.postId = postId) && decide (v.userId = userId))) = true := by
      simpa using not_and_or.1 hsame
    rw [hkept, Bool.and_true]

/-- A vote that is set is the only one of its user on its post, and the others stay. -/
theorem scoresBy_setVote (hset : c.setVote postId userId score stamp = .ok ((), m)) (post user : Int) :
    m.scoresBy post user = if postId = post ∧ userId = user then [score] else c.scoresBy post user := by
  split
  next hsame =>
    obtain ⟨rfl, rfl⟩ := hsame
    obtain ⟨-, -, rfl⟩ := setVote_eq_ok hset
    simp [scoresBy, List.filter_filter]
  next hother =>
    refine congrArg (List.map _) (filter_votes_setVote hset ?_)
    rintro v rfl rfl
    simpa using hother

/-- The votes on other posts stay when a vote is set. -/
theorem voteSum_setVote (hset : c.setVote postId userId score stamp = .ok ((), m)) {post : Int}
    (hpost : postId ≠ post) : m.voteSum post = c.voteSum post := by
  refine congrArg (fun vs : List Vote => (vs.map (·.score)).sum) (filter_votes_setVote hset ?_)
  rintro v rfl -
  simpa using hpost

/-- A vote replaces the one before it, and the score is their sum again. -/
theorem Tallied.vote (h : Tallied cast c) (hset : c.setVote postId userId score stamp = .ok ((), m))
    (htally : m.tallyVotes postId = .ok ((), d)) : Tallied (⟨userId, postId, score⟩ :: cast) d := by
  have hscores := scoresBy_setVote hset
  have hsums {post : Int} (hpost : postId ≠ post) := voteSum_setVote hset hpost
  obtain ⟨hpost, -, rfl⟩ := setVote_eq_ok hset
  obtain ⟨sum, hsum, rfl⟩ | ⟨hnone, -⟩ := tallyVotes_eq_ok htally
  · refine ⟨h.userIds, fun v hv => ?_, fun f hf => ?_, fun p hp hvoted => ?_, fun p hp => ?_,
      fun post user => ?_⟩
    · rw [refersToPost_mapPosts (by intro _; rfl)]
      rcases List.mem_append.1 hv with hv | hv
      · exact h.votesRefer v (List.mem_of_mem_filter hv)
      · obtain rfl := List.mem_singleton.1 hv
        exact hpost
    · rw [favoriteRefers, refersToPost_mapPosts (by intro _; rfl)]
      exact h.favoritesRefer f hf
    · obtain ⟨r, hr, ⟨hq, rfl⟩ | ⟨hq, rfl⟩⟩ := of_mem_mapPosts hp
      · have hid : r.id = postId := by simpa using hq
        rw [sumScores?_eq_some hsum, sum_scoresOf, Int.zero_add, hid]
        rfl
      · have hid : postId ≠ p.id := by simpa [eq_comm] using hq
        obtain ⟨v, hv, hon⟩ := hvoted
        have hold : v ∈ c.votes := by
          rcases List.mem_append.1 hv with hv | hv
          · exact List.mem_of_mem_filter hv
          · obtain rfl := List.mem_singleton.1 hv
            exact absurd hon hid
        exact (h.score_eq p hr ⟨v, hold, hon⟩).trans (hsums hid).symm
    · obtain ⟨r, hr, ⟨-, rfl⟩ | ⟨-, rfl⟩⟩ := of_mem_mapPosts hp
      · exact h.favCount_eq r hr
      · exact h.favCount_eq p hr
    · refine (hscores post user).trans ?_
      rw [lastScore?_cons]
      split
      · rfl
      · exact h.scoresBy_eq post user
  · obtain ⟨p, hp, hid⟩ := refersToPost_iff.1 hpost
    exact absurd hid (hnone p hp)

/-- Tallies have nothing to do with tags, and stamps on posts leave them alone. -/
theorem seesTagNames_tallied (cast : List Ballot) : SeesTagNames (Tallied cast) where
  congr _ _ _ _ hc :=
    ⟨hc.userIds, hc.votesRefer, hc.favoritesRefer, hc.score_eq, hc.favCount_eq, hc.scoresBy_eq⟩
  addTag c _ _ _ _ _ _ hc hd := by
    obtain ⟨-, -, rfl⟩ := addTag_eq_ok hd
    exact ⟨hc.userIds, hc.votesRefer, hc.favoritesRefer, hc.score_eq, hc.favCount_eq, hc.scoresBy_eq⟩
  touch _ _ _ hc := hc.mapPosts (fun _ => rfl) (fun _ => rfl) fun _ => rfl

/-- In a new store there is nothing to tally. -/
theorem tallied_of_initial {cs : Categories} (hnew : initial cs = .ok c) : Tallied [] c := by
  obtain ⟨rows, rfl⟩ := initial_eq_ok hnew
  exact ⟨List.nodup_nil, by simp [empty], by simp [empty], by simp [empty], by simp [empty],
    fun _ _ => rfl⟩

end Contents

namespace Store

open Work

variable {cast : List Ballot}

/-- Making a post that nobody is said to favour keeps the tallies. -/
theorem keeps_createPost_tallied (draft : PostDraft) (names : List String) :
    Keeps (Contents.Tallied cast) (createPost { draft with favCount := 0 } names) :=
  (keeps_creation_of_names (Contents.seesTagNames_tallied cast)
    (fun _ _ _ _ hc hd => hc.addPost rfl hd) names).atomic

/-- Favouring a post keeps the tallies. -/
theorem keeps_addFavorite_tallied (userId postId : Int) :
    Keeps (Contents.Tallied cast) (addFavorite userId postId) := by
  refine Leads.keeps_atomic (keeps_favoring ignoresCollections_trivially userId postId).setting ?_
  refine leads_get.bind fun s => Leads.bind
    (Q := fun added m => if added then ∃ c, Contents.Tallied cast c ∧
      c.addFavorite userId postId s.stamp = .ok (true, m) else Contents.Tallied cast m)
    (leads_writeReferring fun c added m hc hm => ?_) fun added => ?_
  · cases added with
    | true => exact ⟨c, hc, hm⟩
    | false =>
      obtain ⟨-, rfl, -⟩ | ⟨hfalse, -⟩ := Contents.addFavorite_eq_ok hm
      · exact hc
      · cases hfalse
  · cases added with
    | true =>
      refine leads_write fun m _ d hm hd => ?_
      obtain ⟨c, hc, hadd⟩ := hm
      obtain ⟨-, rfl⟩ := Prod.mk.inj (Except.ok.inj hd)
      exact hc.favor hadd
    | false => exact (keeps_pure _).leads

/-- A vote that succeeds is the last ballot from then on. -/
theorem leads_addVote_tallied (userId postId score : Int) :
    Leads (Contents.Tallied cast) (addVote userId postId score) fun _ =>
      Contents.Tallied (⟨userId, postId, score⟩ :: cast) := by
  refine Leads.atomic (keeps_voting ignoresCollections_trivially userId postId score).setting ?_
  refine leads_get.bind fun s => Leads.bind
    (Q := fun _ m => ∃ c, Contents.Tallied cast c ∧
      c.setVote postId userId score s.stamp = .ok ((), m))
    (leads_writeReferring fun c _ m hc hm => ⟨c, hc, hm⟩) fun _ =>
      leads_write fun m _ d hm hd => ?_
  obtain ⟨c, hc, hset⟩ := hm
  exact hc.vote hset hd

end Store

/-- A call on a store, or what happens to the store between calls. -/
inductive Call where
  | findOrCreateUser (name : String)
  /-- A post is made, and nobody is said to favour it. -/
  | createPost (draft : PostDraft) (names : List String)
  | addVote (userId postId score : Int)
  | addFavorite (userId postId : Int)
  /-- Time passes, others take hold of the store or let it go, and the disk fails or works again. -/
  | meanwhile (clock : Moment) (heldElsewhere commitsFail : Bool)

/-- A store with the votes that succeeded on it, the latest first. -/
structure Poll where
  store : Store
  cast : List Ballot

namespace Poll

/-- The poll after a call, whether that succeeded or failed. -/
def after (poll : Poll) : Call → Poll
  | .findOrCreateUser name => { poll with store := ((Store.findOrCreateUser name).runOn poll.store).2 }
  | .createPost draft names =>
    { poll with store := ((Store.createPost { draft with favCount := 0 } names).runOn poll.store).2 }
  | .addVote userId postId score =>
    match (Store.addVote userId postId score).runOn poll.store with
    | (.ok (), t) => ⟨t, ⟨userId, postId, score⟩ :: poll.cast⟩
    | (.error _, t) => { poll with store := t }
  | .addFavorite userId postId =>
    { poll with store := ((Store.addFavorite userId postId).runOn poll.store).2 }
  | .meanwhile clock heldElsewhere commitsFail =>
    { poll with
      store := { poll.store with
        clock := clock
        heldElsewhere := heldElsewhere
        commitsFail := commitsFail } }

/-- The poll after some calls. -/
def run (poll : Poll) (calls : List Call) : Poll :=
  calls.foldl after poll

/-- Everything is tallied, with the ballots that were cast. -/
def Tallied (poll : Poll) : Prop :=
  poll.store.contents.Tallied poll.cast

variable {poll : Poll}

/-- After one call everything is tallied still. -/
theorem Tallied.after (h : poll.Tallied) (call : Call) : (poll.after call).Tallied := by
  cases call with
  | findOrCreateUser name =>
    exact (Store.keeps_findOrCreateUser (fun _ _ _ _ _ hc hd => hc.addUser hd) name).contents _ h
  | createPost draft names => exact (Store.keeps_createPost_tallied draft names).contents _ h
  | addVote userId postId score =>
    rw [Poll.after]
    split
    next t hrun => exact Store.leads_addVote_tallied userId postId score poll.store () t h hrun
    next e t hrun =>
      have hsame := Store.spares_addVote userId postId score poll.store e t hrun
      rwa [Tallied, hsame]
  | addFavorite userId postId => exact (Store.keeps_addFavorite_tallied userId postId).contents _ h
  | meanwhile clock heldElsewhere commitsFail => exact h

/-- After any calls everything is tallied still. -/
theorem Tallied.run (h : poll.Tallied) (calls : List Call) : (poll.run calls).Tallied := by
  induction calls generalizing poll with
  | nil => exact h
  | cons call rest ih => exact ih (h.after call)

end Poll

/-- On a store that was just made, whatever users are registered, posts made, votes cast and favourites
added, and whichever of these calls fail: each post that has a vote has the sum of its votes as its score;
of each user a post has the vote of the last call that succeeded, and no other; and each post has as many
favourites as there are users with a favourite for it. -/
theorem tallied_of_calls {cs : Categories} {c : Contents} (hnew : Contents.initial cs = .ok c)
    (clock : Moment) (calls : List Call) :
    let poll := Poll.run ⟨.ofContents c clock cs, []⟩ calls
    let d := poll.store.contents
    (∀ p ∈ d.posts, (∃ v ∈ d.votes, v.postId = p.id) →
      p.score = ((d.votes.filter (·.postId = p.id)).map (·.score)).sum) ∧
    (∀ postId userId, (d.votes.filter fun v => v.postId = postId && v.userId = userId).map (·.score) =
      (lastScore? poll.cast postId userId).toList) ∧
    ∀ p ∈ d.posts, p.favCount =
      (d.users.countP fun u => d.favorites.any fun f => f.userId = u.id && f.postId = p.id : Nat) := by
  have hstart : Poll.Tallied ⟨.ofContents c clock cs, []⟩ := Contents.tallied_of_initial hnew
  have hend := hstart.run calls
  exact ⟨hend.score_eq, hend.scoresBy_eq, hend.favCount_eq⟩

/-- A user changes a vote from five to minus two, a vote of nobody fails, and another user favours the post
twice: the score is minus two, and one user favours the post. -/
theorem tallied_of_calls_changed :
    ∃ c, Contents.initial .standard = .ok c ∧
      let d := (Poll.run ⟨.ofContents c ⟨0, 0⟩ .standard, []⟩ [.findOrCreateUser "ann",
        .findOrCreateUser "bob", .createPost { favCount := 9 } ["cat"], .addVote 1 1 5,
        .addVote 1 1 (-2), .addVote 3 1 7, .addFavorite 2 1, .addFavorite 2 1]).store.contents
      ∃ p ∈ d.posts, p.score = -2 ∧ p.favCount = 1 := by
  have hnew : Contents.initial .standard = .ok _ := rfl
  refine ⟨_, hnew, ?_⟩
  intro d
  obtain ⟨hscore, -, hfav⟩ := tallied_of_calls hnew ⟨0, 0⟩ [.findOrCreateUser "ann",
    .findOrCreateUser "bob", .createPost { favCount := 9 } ["cat"], .addVote 1 1 5,
    .addVote 1 1 (-2), .addVote 3 1 7, .addFavorite 2 1, .addFavorite 2 1]
  have hids : d.posts.map (·.id) = [1] := by decide +kernel
  obtain ⟨p, hp, hid⟩ := List.mem_map.1 (hids ▸ List.mem_singleton_self (1 : Int))
  refine ⟨p, hp, ?_, ?_⟩
  · rw [hscore p hp (by rw [hid]; decide +kernel), hid]
    decide +kernel
  · rw [hfav p hp, hid]
    decide +kernel

end Imageboard
