import Backjump.Proofs.Solver.Coherence

/-! Conflict analysis on a coherent state. The walk keeps a cut: below the level
it learns the negations of the entries it met, and the entries of the level that
it met and has not reached are pending. It starts from the variables of the
falsified clause, and an entry that is replaced brings in its sources. So an
entry was met exactly if the clause names it or an entry that was met and passed
names it as a source. A decision is the first entry of its level, so the walk
ends there at the latest and asks no decision for its sources. -/
namespace Backjump.Analysis

/-- How many entries of the level were met. -/
def waitingIn (level : Int) (seen : List Key) (es : List Entry) : Nat :=
  es.countP fun e => e.level = level ∧ some e.symbol ∈ seen

/-- The cut describes what was met; `ahead` are the entries that the walk has not reached. -/
structure Cut.Tracks (cut : Cut) (es : List Entry) (level : Int) (ahead : List Entry) : Prop where
  learned : ∀ l, l ∈ cut.learned ↔
    ∃ e ∈ es, e.level < level ∧ some e.symbol ∈ cut.seen ∧ l = e.literal.negate
  pending : cut.pending = waitingIn level cut.seen ahead

variable {s : Solver} {clash : Option Clash} {k : Clash} {es ahead passed : List Entry} {e : Entry}
  {seen keys : List Key} {level : Int} {cut : Cut} {l : Literal}

theorem waitingIn_cons_of_ne (apart : ∀ e' ∈ es, some e'.symbol ≠ some e.symbol) :
    waitingIn level (some e.symbol :: seen) es = waitingIn level seen es := by
  apply List.countP_congr
  intro e' member
  simp [show ¬e'.symbol = e.symbol from fun same => apart e' member (congrArg some same)]

theorem waitingIn_cons (distinct : (es.map Entry.symbol).Nodup) (member : e ∈ es)
    (unseen : some e.symbol ∉ seen) :
    waitingIn level (some e.symbol :: seen) es =
      waitingIn level seen es + if e.level = level then 1 else 0 := by
  obtain ⟨before, after, rfl⟩ := List.append_of_mem member
  rw [List.map_append, List.map_cons, List.nodup_append, List.nodup_cons] at distinct
  obtain ⟨-, ⟨notAfter, -⟩, apart⟩ := distinct
  have inBefore : waitingIn level (some e.symbol :: seen) before = waitingIn level seen before :=
    waitingIn_cons_of_ne fun e' early same =>
      apart _ (List.mem_map_of_mem early) e.symbol (by simp) (Option.some.inj same)
  have inAfter : waitingIn level (some e.symbol :: seen) after = waitingIn level seen after :=
    waitingIn_cons_of_ne fun e' late same =>
      notAfter (Option.some.inj same ▸ List.mem_map_of_mem late)
  unfold waitingIn at inBefore inAfter ⊢
  simp only [List.countP_append, List.countP_cons, inBefore, inAfter, List.mem_cons_self, unseen,
    and_true, and_false, decide_false, decide_eq_true_eq, Bool.false_eq_true, if_false]
  omega

/-- The cut with one more entry met. -/
def Cut.meet (cut : Cut) (level : Int) (e : Entry) : Cut :=
  if e.level = level then
    { cut with seen := some e.symbol :: cut.seen, pending := cut.pending + 1 }
  else
    { cut with seen := some e.symbol :: cut.seen, learned := cut.learned ++ [e.literal.negate] }

theorem Cut.seen_meet : (cut.meet level e).seen = some e.symbol :: cut.seen := by
  unfold meet
  split <;> rfl

theorem Cut.pending_le_meet : cut.pending ≤ (cut.meet level e).pending := by
  unfold meet
  split
  · exact Nat.le_succ _
  · exact Nat.le_refl _

theorem Cut.learned_meet : l ∈ (cut.meet level e).learned ↔
    l ∈ cut.learned ∨ e.level ≠ level ∧ l = e.literal.negate := by
  unfold meet
  split
  · rename_i here
    simp [here]
  · rename_i elsewhere
    simp [elsewhere]

theorem Cut.pending_meet :
    (cut.meet level e).pending = cut.pending + if e.level = level then 1 else 0 := by
  unfold meet
  split <;> rfl

theorem Cut.Tracks.meet (tracks : cut.Tracks es level ahead) (distinct : (es.map Entry.symbol).Nodup)
    (split : es = ahead.reverse ++ passed) (reached : ∀ e ∈ es, e.level ≤ level)
    (isAhead : e ∈ ahead) (unseen : some e.symbol ∉ cut.seen) :
    (cut.meet level e).Tracks es level ahead := by
  have member : e ∈ es := by simp [split, isAhead]
  constructor
  · intro l
    rw [Cut.learned_meet, Cut.seen_meet, tracks.learned]
    constructor
    · rintro (⟨e', held, low, met, rfl⟩ | ⟨elsewhere, rfl⟩)
      · exact ⟨e', held, low, List.mem_cons_of_mem _ met, rfl⟩
      · have := reached e member
        exact ⟨e, member, by omega, List.mem_cons_self, rfl⟩
    · rintro ⟨e', held, low, met, rfl⟩
      rcases List.mem_cons.mp met with same | old
      · rw [List.inj_on_of_nodup_map distinct held member (Option.some.inj same)] at low ⊢
        exact .inr ⟨Int.ne_of_lt low, rfl⟩
      · exact .inl ⟨e', held, low, old, rfl⟩
  · have distinctAhead : (ahead.map Entry.symbol).Nodup := by
      rw [split, List.map_append, List.nodup_append, List.map_reverse, List.nodup_reverse] at distinct
      exact distinct.1
    rw [Cut.pending_meet, Cut.seen_meet, waitingIn_cons distinctAhead isAhead unseen, tracks.pending]

/-- Visiting the vertex of an entry meets the entry. -/
theorem visit_cons_of_unseen (coherent : s.Coherent clash) (member : e ∈ s.trail.entries)
    (unseen : some e.symbol ∉ cut.seen) :
    Cut.visit s.graph s.level (some e.symbol :: keys) cut =
      Cut.visit s.graph s.level keys (cut.meet s.level e) := by
  rw [Cut.visit, if_neg unseen, coherent.vertex_eq_ok member, Cut.meet]
  by_cases here : e.level = s.level
  · simp only [Entry.vertex, here, if_true]
  · have low : e.level < s.level := by
      have := coherent.level_le e member
      omega
    simp only [Entry.vertex, here, low, if_false, if_true]

/-- Taking entries that lie ahead into the cut succeeds. -/
theorem visit_eq_ok (coherent : s.Coherent clash)
    (split : s.trail.entries = ahead.reverse ++ passed)
    (tracks : cut.Tracks s.trail.entries s.level ahead)
    (inside : ∀ key ∈ keys, ∃ e ∈ ahead, key = some e.symbol) :
    ∃ cut', Cut.visit s.graph s.level keys cut = .ok cut' ∧
      cut'.Tracks s.trail.entries s.level ahead ∧ cut.pending ≤ cut'.pending ∧
      ∀ key, key ∈ cut'.seen ↔ key ∈ cut.seen ∨ key ∈ keys := by
  induction keys generalizing cut with
  | nil => exact ⟨cut, rfl, tracks, Nat.le_refl _, by simp⟩
  | cons key rest ih =>
    rw [List.forall_mem_cons] at inside
    obtain ⟨⟨e, isAhead, rfl⟩, insideRest⟩ := inside
    by_cases met : some e.symbol ∈ cut.seen
    · obtain ⟨cut', visited, tracks', more, seen'⟩ := ih tracks insideRest
      refine ⟨cut', by rw [Cut.visit, if_pos met, visited], tracks', more, ?_⟩
      intro key
      rw [seen', List.mem_cons]
      constructor
      · rintro (old | new)
        · exact .inl old
        · exact .inr (.inr new)
      · rintro (old | rfl | new)
        · exact .inl old
        · exact .inl met
        · exact .inr new
    · have member : e ∈ s.trail.entries := by simp [split, isAhead]
      have tracksNow :=
        tracks.meet coherent.trail.distinct split coherent.level_le isAhead met
      obtain ⟨cut', visited, tracks', more, seen'⟩ := ih tracksNow insideRest
      refine ⟨cut', ?_, tracks', Nat.le_trans Cut.pending_le_meet more, ?_⟩
      · rw [visit_cons_of_unseen coherent member met, visited]
      · intro key
        rw [seen', Cut.seen_meet, List.mem_cons, List.mem_cons, or_comm (a := key = _), or_assoc]

/-- A sorted walk with something pending stands at the level. -/
theorem level_eq_of_waiting (coherent : s.Coherent clash)
    (split : s.trail.entries = (e :: ahead).reverse ++ passed)
    (waiting : waitingIn s.level seen (e :: ahead) ≠ 0) : e.level = s.level := by
  obtain ⟨e', isAhead, here⟩ := List.countP_pos_iff.mp (Nat.pos_of_ne_zero waiting)
  obtain ⟨level, -⟩ := of_decide_eq_true here
  have member : e ∈ s.trail.entries := by simp [split]
  have top := coherent.level_le e member
  rcases List.mem_cons.mp isAhead with rfl | earlier
  · exact level
  · have sorted := coherent.layered.sorted
    rw [split, List.reverse_cons, List.append_assoc, List.pairwise_append] at sorted
    have := sorted.2.2 e' (List.mem_reverse.mpr earlier) e (by simp)
    omega

theorem Cut.Tracks.skip (tracks : cut.Tracks es level (e :: ahead)) (unmet : some e.symbol ∉ cut.seen) :
    cut.Tracks es level ahead where
  learned := tracks.learned
  pending := by
    rw [tracks.pending, waitingIn, List.countP_cons_of_neg (by simp [unmet])]
    rfl

/-- Passing an entry of the level that was met takes it off what is pending. -/
theorem Cut.Tracks.pass (tracks : cut.Tracks es level (e :: ahead)) (met : some e.symbol ∈ cut.seen)
    (here : e.level = level) :
    Cut.Tracks { cut with pending := cut.pending - 1 } es level ahead where
  learned := tracks.learned
  pending := by
    rw [tracks.pending, waitingIn, List.countP_cons_of_pos (by simp [here, met])]
    rfl

/-- The stages of a walk: the cut, the entries ahead, last one first, and the entries passed. -/
inductive Walk (s : Solver) (k : Clash) : Cut → List Entry → List Entry → Prop where
  | start {cut : Cut} : (∀ key, key ∈ cut.seen ↔ key ∈ k.clause.symbols.map some) →
      cut.Tracks s.trail.entries s.level s.trail.entries.reverse →
      Walk s k cut s.trail.entries.reverse []
  | skip {cut : Cut} {e : Entry} {ahead passed : List Entry} : Walk s k cut (e :: ahead) passed →
      some e.symbol ∉ cut.seen → Walk s k cut ahead (e :: passed)
  | replace {cut cut' : Cut} {e : Entry} {ahead passed : List Entry} :
      Walk s k cut (e :: ahead) passed → some e.symbol ∈ cut.seen → e.level = s.level →
      cut.pending - 1 ≠ 0 →
      (∀ key, key ∈ cut'.seen ↔ key ∈ cut.seen ∨ key ∈ e.sources s.formula) →
      cut'.Tracks s.trail.entries s.level ahead → Walk s k cut' ahead (e :: passed)

/-- The walk ends at its point, the only entry of the level that is still pending. -/
structure Concludes (s : Solver) (k : Clash) (point : Entry) (cut : Cut)
    (ahead passed : List Entry) : Prop where
  walk : Walk s k cut (point :: ahead) passed
  met : some point.symbol ∈ cut.seen
  level : point.level = s.level
  last : cut.pending - 1 = 0

/-- The sources of the next entry lie ahead of it. -/
theorem exists_source_ahead (coherent : s.Coherent clash)
    (split : s.trail.entries = (e :: ahead).reverse ++ passed) {key : Key}
    (source : key ∈ e.sources s.formula) : ∃ e' ∈ ahead, key = some e'.symbol := by
  have justified := coherent.justified ahead.reverse e passed (by simp [split])
  obtain ⟨e', inFront, rfl⟩ := justified.exists_entry_of_source source
  exact ⟨e', List.mem_reverse.mp inFront, rfl⟩

namespace Walk

theorem split (walk : Walk s k cut ahead passed) : s.trail.entries = ahead.reverse ++ passed := by
  induction walk with
  | start => simp
  | skip _ _ ih => simp [ih]
  | replace _ _ _ _ _ _ ih => simp [ih]

theorem tracks (walk : Walk s k cut ahead passed) :
    cut.Tracks s.trail.entries s.level ahead := by
  induction walk with
  | start _ tracks => exact tracks
  | skip _ unmet ih => exact ih.skip unmet
  | replace _ _ _ _ _ tracks => exact tracks

/-- An entry that was passed is no source of the next one. -/
theorem passed_not_source (walk : Walk s k cut (e :: ahead) passed) (coherent : s.Coherent clash)
    {e' : Entry} (behind : e' ∈ passed) : some e'.symbol ∉ e.sources s.formula := by
  intro source
  obtain ⟨e'', isAhead, same⟩ := exists_source_ahead coherent walk.split source
  exact coherent.trail.symbol_ne walk.split (by simp [isAhead]) behind (Option.some.inj same).symm

/-- Met are the variables of the clause and the sources of what was met and passed. -/
theorem mem_seen (walk : Walk s k cut ahead passed) (coherent : s.Coherent clash) {key : Key} :
    key ∈ cut.seen ↔ key ∈ k.clause.symbols.map some ∨
      ∃ e ∈ passed, some e.symbol ∈ cut.seen ∧ key ∈ e.sources s.formula := by
  induction walk with
  | start seen => simp [seen]
  | @skip cut e ahead passed walk unmet ih => simp [ih, unmet]
  | @replace cut cut' e ahead passed walk met _ _ seen _ ih =>
    have unchanged : ∀ e' ∈ passed, some e'.symbol ∈ cut'.seen ↔ some e'.symbol ∈ cut.seen := by
      intro e' behind
      rw [seen, or_iff_left (walk.passed_not_source coherent behind)]
    have metStill : some e.symbol ∈ cut'.seen := (seen _).mpr (.inl met)
    rw [seen, ih, List.exists_mem_cons_iff]
    constructor
    · rintro ((named | ⟨e', behind, met', source⟩) | source)
      · exact .inl named
      · exact .inr (.inr ⟨e', behind, (unchanged e' behind).mpr met', source⟩)
      · exact .inr (.inl ⟨metStill, source⟩)
    · rintro (named | ⟨-, source⟩ | ⟨e', behind, met', source⟩)
      · exact .inl (.inl named)
      · exact .inr source
      · exact .inl (.inr ⟨e', behind, (unchanged e' behind).mp met', source⟩)

/-- From a stage with something pending the walk concludes, whatever stands behind its point. -/
theorem resolve_eq_ok (walk : Walk s k cut ahead passed) (coherent : s.Coherent clash)
    (waiting : cut.pending ≠ 0) :
    ∃ point cut' front ahead' passed', Concludes s k point cut' ahead' passed' ∧
      ahead = front ++ point :: ahead' ∧
      ∀ rest, resolve s.graph s.level (front ++ point :: rest) cut = .ok (point, cut') := by
  induction ahead generalizing cut passed with
  | nil => exact absurd walk.tracks.pending waiting
  | cons e ahead ih =>
    have tracks := walk.tracks
    have here := level_eq_of_waiting coherent walk.split (tracks.pending ▸ waiting)
    by_cases met : some e.symbol ∈ cut.seen
    · have tracksAhead := tracks.pass met here
      by_cases one : cut.pending - 1 = 0
      · refine ⟨e, cut, [], ahead, passed, ⟨walk, met, here, one⟩, rfl, fun rest => ?_⟩
        rw [List.nil_append, resolve, if_neg (not_not.mpr met), if_neg (not_not.mpr here), if_pos one]
      · have split' : s.trail.entries = ahead.reverse ++ e :: passed := by simp [walk.split]
        obtain ⟨cut₁, visited, tracks₁, more, seen⟩ := visit_eq_ok coherent split' tracksAhead
          fun _ source => exists_source_ahead coherent walk.split source
        have waiting₁ : cut₁.pending ≠ 0 := fun zero => one (Nat.le_zero.mp (zero ▸ more))
        obtain ⟨point, cut', front, ahead', passed', concludes, found, resolved⟩ :=
          ih (.replace walk met here one seen tracks₁) waiting₁
        refine ⟨point, cut', e :: front, ahead', passed', concludes, by simp [found], fun rest => ?_⟩
        have member : e ∈ s.trail.entries := by simp [walk.split]
        rw [List.cons_append, resolve, if_neg (not_not.mpr met), if_neg (not_not.mpr here),
          if_neg one, coherent.predecessors_eq_ok member]
        simp only [visited]
        exact resolved rest
    · obtain ⟨point, cut', front, ahead', passed', concludes, found, resolved⟩ :=
        ih (.skip walk met) waiting
      refine ⟨point, cut', e :: front, ahead', passed', concludes, by simp [found], fun rest => ?_⟩
      rw [List.cons_append, resolve, if_pos met]
      exact resolved rest

end Walk

namespace Concludes

variable {point : Entry}

theorem member (concludes : Concludes s k point cut ahead passed) : point ∈ s.trail.entries := by
  simp [concludes.walk.split]

theorem reverse_entries (concludes : Concludes s k point cut ahead passed) :
    s.trail.entries.reverse = passed.reverse ++ point :: ahead := by
  simp [concludes.walk.split]

theorem below (concludes : Concludes s k point cut ahead passed) :
    ∀ l ∈ cut.learned, ∃ e ∈ s.trail.entries, e.level < s.level ∧ l = e.literal.negate := by
  intro l listed
  obtain ⟨e, held, low, -, same⟩ := (concludes.walk.tracks.learned l).mp listed
  exact ⟨e, held, low, same⟩

/-- What was met at the level, the point apart, was passed. -/
theorem passed_of_met (concludes : Concludes s k point cut ahead passed)
    (member : e ∈ s.trail.entries) (here : e.level = s.level) (met : some e.symbol ∈ cut.seen)
    (other : e ≠ point) : e ∈ passed := by
  have pending : cut.pending - 1 = waitingIn s.level cut.seen ahead :=
    (concludes.walk.tracks.pass concludes.met concludes.level).pending
  rw [concludes.last] at pending
  have none_ahead := List.countP_eq_zero.mp pending.symm
  rw [concludes.walk.split, List.mem_append, List.mem_reverse, List.mem_cons] at member
  rcases member with (same | isAhead) | behind
  · exact absurd same other
  · exact absurd (decide_eq_true ⟨here, met⟩) (none_ahead e isAhead)
  · exact behind

/-- The entries passed are implied: the point is of their level and came before. -/
theorem of_passed (concludes : Concludes s k point cut ahead passed) (coherent : s.Coherent clash)
    (behind : e ∈ passed) : e.level = s.level ∧ e.isDecision = false := by
  have layered := coherent.layered
  obtain ⟨between, rest, rfl⟩ := List.append_of_mem behind
  have split : s.trail.entries = (ahead.reverse ++ point :: between) ++ e :: rest := by
    simp [concludes.walk.split]
  have member : e ∈ s.trail.entries := by simp [split]
  have top := coherent.level_le e member
  have here := concludes.level
  rw [split] at layered
  have sorted := layered.sorted
  rw [List.pairwise_append] at sorted
  have high := sorted.2.2 point (by simp) e (by simp)
  refine ⟨by omega, ?_⟩
  by_contra decision
  have low := layered.level_lt_of_decision ((Bool.not_eq_false _).mp decision) point (by simp)
  omega

end Concludes

end Backjump.Analysis
