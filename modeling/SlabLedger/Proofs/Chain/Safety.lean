import SlabLedger.Proofs.Chain.Steps

/-!
# A chain walk over any log source

A log source may answer differently each time it is asked, and may change with every fetch. This
file shows what a walk keeps true over any source, whatever it answers:

* no log is fetched twice, the sentinel is never fetched, and no more logs are fetched than the
  limit allows, so the count of visited logs never passes the limit;
* one call of `next` loads at most as many logs as the limit still allows, and one more that
  ends the walk;
* after a fault, or once `next` has answered nothing, every later call answers nothing and asks
  the source for nothing, so a walk gives at most one fault.

Fetches are made visible by a source that records each address it is asked for
(`LogSource.recording`); a walk over it answers exactly as the walk over the source itself. The
one invariant, `Chain.Sound`, is shown for one move of the walk and then carried through calls.
-/

namespace SlabLedger

/-- The source that also keeps, in order, every address it is asked for. -/
def LogSource.recording {σ : Type} (src : LogSource σ) : LogSource (σ × List Address) :=
  ⟨fun s a => ((src.fetch s.1 a).1, ((src.fetch s.1 a).2, s.2 ++ [a]))⟩

theorem Address.eq_of_nonSentinel {a b : Address} (h : a.nonSentinel = some b) :
    b = a ∧ b.isSentinel = false := by
  unfold Address.nonSentinel at h
  split at h
  · cases h
  · cases h
    exact ⟨rfl, by simpa using ‹¬a.isSentinel = true›⟩

namespace Chain

variable {σ : Type} {c c' : Chain σ} {m : ChainMove}

/-- What a walk keeps true over any source: no log visited twice, none of them the sentinel, no
more of them than the limit, and no sentinel upcoming. -/
structure Sound (c : Chain σ) : Prop where
  nodup : c.visited.Nodup
  not_sentinel : ∀ a ∈ c.visited, a.isSentinel = false
  length_le : c.visited.length ≤ c.config.maxChainLen
  upcoming : ∀ a, c.upcoming = some a → a.isSentinel = false

/-- Whether an answer of `next` is a fault. -/
def answersFault : Option (Except Fault Entry) → Bool
  | some (.error _) => true
  | _ => false

set_option linter.unusedVariables false in
/-- The loads one call of `next` makes: every log it takes from the upcoming link, whether the
load succeeds or ends the walk with a fault. -/
def loadsOfNext (c : Chain σ) : Nat :=
  match h : c.advance with
  | (.loaded, c') => c'.loadsOfNext + 1
  | (.failed _, _) => 1
  | (.entry _, _) => 0
  | (.finished, _) => 0
termination_by c.measure
decreasing_by
  obtain ⟨hc, hlt, hv⟩ := advance_loaded_measure h
  simp only [measure, hc, hv]
  exact Prod.Lex.left _ _ (by omega)

theorem sound_start (src : LogSource σ) (s : σ) (first : Address) (config : DecoderConfig)
    (owner : Option Address) : (start src s first config owner).Sound where
  nodup := List.nodup_nil
  not_sentinel := by simp [start]
  length_le := by simp [start]
  upcoming a h := (Address.eq_of_nonSentinel h).2

theorem Step.config_eq (h : Step c m c') : c'.config = c.config := by
  cases h <;> rfl

/-- Fetching the upcoming log keeps the walk sound: it was no sentinel, it was not visited
before, and the limit was not yet reached. -/
theorem Sound.fetched {a : Address} (hs : c.Sound) (hu : c.upcoming = some a)
    (hlt : c.visited.length < c.config.maxChainLen) (hnew : a ∉ c.visited) :
    (c.fetched a).Sound where
  nodup := List.nodup_append.mpr ⟨hs.nodup, by simp,
    fun x hx y hy => by rw [List.mem_singleton.mp hy]; rintro rfl; exact hnew hx⟩
  not_sentinel x hx := by
    rcases List.mem_append.mp hx with hx | hx
    · exact hs.not_sentinel x hx
    · rw [List.mem_singleton.mp hx]
      exact hs.upcoming a hu
  length_le := by simp only [Chain.fetched, List.length_append, List.length_singleton]; omega
  upcoming x hx := by simp [Chain.fetched] at hx

/-- One move keeps the walk sound. -/
theorem Step.sound (h : Step c m c') (hs : c.Sound) : c'.Sound := by
  cases h with
  | entry e rest hp => exact ⟨hs.nodup, hs.not_sentinel, hs.length_le, hs.upcoming⟩
  | finished _ => exact hs
  | tooLong a hp hu hlen => exact ⟨hs.nodup, hs.not_sentinel, hs.length_le, by simp⟩
  | revisit a hp hu hlt hmem => exact ⟨hs.nodup, hs.not_sentinel, hs.length_le, by simp⟩
  | loadFails a f hp hu hlt hmem hf => exact hs.fetched hu hlt hmem
  | loads a log hp hu hlt hmem hf =>
    have hfetched := hs.fetched hu hlt hmem
    exact ⟨hfetched.nodup, hfetched.not_sentinel, hfetched.length_le,
      fun b hb => (Address.eq_of_nonSentinel hb).2⟩

theorem Sound.afterCalls (hs : c.Sound) (k : Nat) : (c.afterCalls k).Sound :=
  afterCalls_preserves (fun h hd => h.sound hd) hs k

/-- A sound walk loads in one call of `next` at most the logs the limit still allows, and one
more whose load ends the call with a fault. -/
theorem loadsOfNext_le (hs : c.Sound) :
    c.loadsOfNext ≤ c.config.maxChainLen - c.visited.length + 1 := by
  fun_induction loadsOfNext c with
  | case1 x c' h ih =>
    obtain ⟨hc, hlt, hv⟩ := advance_loaded_measure h
    have hle := ih ((advance_eq_iff.mp h).sound hs)
    rw [hc, hv] at hle
    omega
  | case2 => omega
  | case3 => omega
  | case4 => omega

/-- A call that answers a fault or nothing leaves the walk over. -/
theorem ended_of_next (h : c.next.1 = none ∨ answersFault c.next.1 = true) :
    c.next.2.Ended := by
  fun_induction Chain.next c with
  | case1 x e c' hx => simp [answersFault] at h
  | case2 x f c' hx => exact ended_of_advance_failed hx
  | case3 x c' hx => obtain ⟨rfl, hend⟩ := eq_of_advance_finished hx; exact hend
  | case4 x c' hx ih => exact ih h

/-- Any number of calls gives at most one fault. -/
theorem countP_answersFault_calls_le (k : Nat) (c : Chain σ) :
    (c.calls k).countP (fun r => answersFault r.1) ≤ 1 := by
  induction k generalizing c with
  | zero => simp [calls]
  | succ k ih =>
    rw [calls, List.countP_cons]
    by_cases hf : answersFault c.next.1 = true
    · have hrest : (c.next.2.calls k).countP (fun r => answersFault r.1) = 0 := by
        rw [calls_of_ended (ended_of_next (Or.inr hf))]
        simp [answersFault]
      rw [hrest]
      simp [hf]
    · simpa [hf] using ih c.next.2

/-! ## Fetches made visible -/

section Recording

variable {src : LogSource σ} {d d' : Chain (σ × List Address)}

/-- Over the recording source, the addresses asked for so far are the logs visited, in order. -/
def FetchesVisited (src : LogSource σ) (d : Chain (σ × List Address)) : Prop :=
  d.source = src.recording ∧ d.state.2 = d.visited

/-- The one place a move asks the source for anything is a load, and a load also counts the log
as visited. -/
theorem Step.fetchesVisited (h : Step d m d') (hd : FetchesVisited src d) :
    FetchesVisited src d' := by
  obtain ⟨hsrc, hlog⟩ := hd
  cases h with
  | entry e rest hp => exact ⟨hsrc, hlog⟩
  | finished _ => exact ⟨hsrc, hlog⟩
  | tooLong a hp hu hlen => exact ⟨hsrc, hlog⟩
  | revisit a hp hu hlt hmem => exact ⟨hsrc, hlog⟩
  | loadFails a f hp hu hlt hmem hf =>
    exact ⟨hsrc, by simp [Chain.fetched, hsrc, LogSource.recording, hlog]⟩
  | loads a log hp hu hlt hmem hf =>
    exact ⟨hsrc, by simp [Chain.fetched, hsrc, LogSource.recording, hlog]⟩

/-- The walk over `src` that a walk over the recording source stands for. -/
def unrecorded (src : LogSource σ) (d : Chain (σ × List Address)) : Chain σ :=
  ⟨src, d.state.1, d.config, d.owner, d.upcoming, d.visited, d.pending⟩

theorem Step.source_eq (h : Step d m d') : d'.source = d.source := by
  cases h <;> rfl

/-- Recording the fetches changes no move. -/
theorem Step.unrecorded (hd : d.source = src.recording) (h : Step d m d') :
    Step (unrecorded src d) m (unrecorded src d') := by
  obtain ⟨source, state, config, owner, upcoming, visited, pending⟩ := d
  dsimp only at hd
  subst hd
  cases h with
  | entry e rest hp => exact .entry _ e rest hp
  | finished hend => exact .finished _ hend
  | tooLong a hp hu hlen => exact .tooLong _ a hp hu hlen
  | revisit a hp hu hlt hmem => exact .revisit _ a hp hu hlt hmem
  | loadFails a f hp hu hlt hmem hf => exact .loadFails _ a f hp hu hlt hmem hf
  | loads a log hp hu hlt hmem hf => exact .loads _ a log hp hu hlt hmem hf

theorem next_unrecorded (hd : d.source = src.recording) :
    (unrecorded src d).next = (d.next.1, unrecorded src d.next.2) := by
  fun_induction Chain.next d with
  | case1 x e c' h =>
    rw [next_of_entry (advance_eq_iff.mpr ((advance_eq_iff.mp h).unrecorded hd))]
  | case2 x f c' h =>
    rw [next_of_failed (advance_eq_iff.mpr ((advance_eq_iff.mp h).unrecorded hd))]
  | case3 x c' h =>
    rw [next_of_finished (advance_eq_iff.mpr ((advance_eq_iff.mp h).unrecorded hd))]
  | case4 x c' h ih =>
    have hstep := advance_eq_iff.mp h
    rw [next_of_loaded (advance_eq_iff.mpr (hstep.unrecorded hd))]
    exact ih (hstep.source_eq.trans hd)

/-- A walk over the recording source answers every call as the walk over the source does. -/
theorem calls_unrecorded (hd : d.source = src.recording) (k : Nat) :
    (unrecorded src d).calls k = d.calls k := by
  induction k generalizing d with
  | zero => rfl
  | succ k ih =>
    have hnext : d.next.2.source = src.recording :=
      next_preserves (P := fun d => d.source = src.recording)
        (fun h hd => h.source_eq.trans hd) hd
    rw [calls, calls, next_unrecorded hd, ih hnext]
    rfl

end Recording

end Chain

/-- A walk over any log source, however its answers change from fetch to fetch, and its fetches
made visible by the recording source. Recording changes no answer. Before every call of `next`,
the addresses fetched so far are distinct, none is the sentinel, there are no more than the
limit, and they are the logs visited; the call loads at most the logs the limit still allows
and one more. Among any number of calls at most one answers a fault, and once a call answers a
fault or nothing, every later call answers nothing and leaves the walk, and so the source, as it
is. -/
theorem walk_fetches_within_limit {σ : Type} (src : LogSource σ) (s : σ) (first : Address)
    (config : DecoderConfig) (owner : Option Address) :
    let c₀ := Chain.start src.recording (s, []) first config owner
    (∀ k, c₀.calls k = (Chain.start src s first config owner).calls k) ∧
    ∀ i, let c := c₀.afterCalls i
      (c.state.2.Nodup ∧ (∀ a ∈ c.state.2, a.isSentinel = false) ∧
        c.state.2.length ≤ config.maxChainLen ∧ c.state.2 = c.visited ∧
        c.visited.length ≤ config.maxChainLen) ∧
      c.loadsOfNext ≤ config.maxChainLen - c.visited.length + 1 ∧
      (c₀.calls i).countP (fun r => Chain.answersFault r.1) ≤ 1 ∧
      ((c.next.1 = none ∨ Chain.answersFault c.next.1 = true) →
        ∀ j, (c.next.2.afterCalls j).next = (none, c.next.2)) := by
  intro c₀
  have hsrc : c₀.source = src.recording := rfl
  refine ⟨fun k => (Chain.calls_unrecorded hsrc k).symm, fun i => ?_⟩
  intro c
  have hsound : c.Sound := (Chain.sound_start _ _ _ _ _).afterCalls i
  have hconfig : c.config = config :=
    Chain.afterCalls_preserves (P := fun d => d.config = config)
      (fun h hd => h.config_eq.trans hd) rfl i
  obtain ⟨-, hlog⟩ : Chain.FetchesVisited src c :=
    Chain.afterCalls_preserves (fun h hd => h.fetchesVisited hd) ⟨rfl, rfl⟩ i
  have hlen := hsound.length_le
  rw [hconfig] at hlen
  refine ⟨⟨hlog ▸ hsound.nodup, hlog ▸ hsound.not_sentinel, hlog ▸ hlen, hlog, hlen⟩, ?_,
    Chain.countP_answersFault_calls_le i c₀, ?_⟩
  · rw [← hconfig]
    exact Chain.loadsOfNext_le hsound
  · intro hover j
    have hend := Chain.ended_of_next hover
    rw [Chain.afterCalls_of_ended hend, Chain.next_of_ended hend]

end SlabLedger
