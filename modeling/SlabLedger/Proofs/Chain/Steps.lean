import SlabLedger.Market.Chain

/-!
# Moves of a chain walk

One move of a walk (`Chain.advance`) hands out a pending entry, loads the upcoming log, fails to
load it, or finds the walk over. This file states each of these once, as an equation for the
walk the move starts from, and derives from them what `Chain.next` and `Chain.walk` do.

The main result, `calls_eq_walk`, says that calling `next` again and again hands out the steps
of `walk` in order, each with the same count of visited logs, and nothing once they are used up:
`walk` is the iterator run to its end.
-/

namespace SlabLedger
namespace Chain

variable {σ : Type} {c c' : Chain σ}

/-- The walk has nothing left to do: no entry pending and no log upcoming. -/
def Ended (c : Chain σ) : Prop :=
  c.pending = [] ∧ c.upcoming = none

/-- The answers of `k` calls of `next`, each with the number of logs visited right after it. -/
def calls : Nat → Chain σ → List (Option (Except Fault Entry) × Nat)
  | 0, _ => []
  | k + 1, c => (c.next.1, c.next.2.visited.length) :: calls k c.next.2

/-- The walk after `k` calls of `next`. -/
def afterCalls : Nat → Chain σ → Chain σ
  | 0, c => c
  | k + 1, c => afterCalls k c.next.2

/-! ## One move -/

/-- What loading the log at `a` finds: the blob the source gives, decoded. -/
def found (c : Chain σ) (a : Address) : Except Fault SettlementLog :=
  (c.source.fetch c.state a).1 >>= fun b => SettlementLog.decode b c.config

/-- The walk after the log at `a` is fetched: it counts as visited, and the source has moved. -/
def fetched (c : Chain σ) (a : Address) : Chain σ :=
  { c with
    upcoming := none
    visited := c.visited ++ [a]
    state := (c.source.fetch c.state a).2 }

/-- Everything one move can do. With an entry pending, it is handed out. With nothing pending,
the upcoming log is taken: the limit is checked first, then whether the log was visited
before, and only then is the log fetched and decoded. -/
inductive Step : Chain σ → ChainMove → Chain σ → Prop
  | entry (c : Chain σ) (e : Entry) (rest : List Entry) :
      c.pending = e :: rest → Step c (.entry e) { c with pending := rest }
  | finished (c : Chain σ) : c.Ended → Step c .finished c
  | tooLong (c : Chain σ) (a : Address) :
      c.pending = [] → c.upcoming = some a → c.config.maxChainLen ≤ c.visited.length →
      Step c (.failed (.layout (.chainTooLong c.config.maxChainLen)))
        { c with upcoming := none }
  | revisit (c : Chain σ) (a : Address) :
      c.pending = [] → c.upcoming = some a → c.visited.length < c.config.maxChainLen →
      a ∈ c.visited →
      Step c (.failed (.layout (.chainRevisits a))) { c with upcoming := none }
  | loadFails (c : Chain σ) (a : Address) (f : Fault) :
      c.pending = [] → c.upcoming = some a → c.visited.length < c.config.maxChainLen →
      a ∉ c.visited → c.found a = .error f →
      Step c (.failed f) (c.fetched a)
  | loads (c : Chain σ) (a : Address) (log : SettlementLog) :
      c.pending = [] → c.upcoming = some a → c.visited.length < c.config.maxChainLen →
      a ∉ c.visited → c.found a = .ok log →
      Step c .loaded
        { c.fetched a with upcoming := log.nextLog, pending := c.keep log.entries }

theorem load_of_found_error {a : Address} {f : Fault} (h : c.found a = .error f) :
    c.load a = (.failed f, { c.fetched a with upcoming := c.upcoming }) := by
  simp only [found] at h
  simp only [load, h, fetched]

theorem load_of_found_ok {a : Address} {log : SettlementLog}
    (h : c.found a = .ok log) :
    c.load a = (.loaded, { c.fetched a with
      upcoming := log.nextLog, pending := c.keep log.entries }) := by
  simp only [found] at h
  simp only [load, h, fetched, keep]

/-- `advance` is the function of the step relation: it makes exactly the moves `Step` allows. -/
theorem advance_eq_iff {m : ChainMove} : c.advance = (m, c') ↔ Step c m c' := by
  constructor
  · intro h
    obtain ⟨source, state, config, owner, upcoming, visited, pending⟩ := c
    cases pending with
    | cons e rest =>
      simp only [advance, Prod.mk.injEq] at h
      obtain ⟨rfl, rfl⟩ := h
      exact .entry _ e rest rfl
    | nil =>
      cases upcoming with
      | none =>
        simp only [advance, Prod.mk.injEq] at h
        obtain ⟨rfl, rfl⟩ := h
        exact .finished _ ⟨rfl, rfl⟩
      | some a =>
        by_cases hlen : config.maxChainLen ≤ visited.length
        · simp only [advance, hlen, if_true, Prod.mk.injEq] at h
          obtain ⟨rfl, rfl⟩ := h
          exact .tooLong _ a rfl rfl hlen
        · have hlt : visited.length < config.maxChainLen := by omega
          by_cases hmem : a ∈ visited
          · simp only [advance, hlen, hmem, if_true, if_false, Prod.mk.injEq] at h
            obtain ⟨rfl, rfl⟩ := h
            exact .revisit _ a rfl rfl hlt hmem
          · simp only [advance, hlen, hmem, if_false] at h
            cases hf : found ⟨source, state, config, owner, none, visited, []⟩ a with
            | error f =>
              rw [load_of_found_error hf, Prod.mk.injEq] at h
              obtain ⟨rfl, rfl⟩ := h
              exact .loadFails _ a f rfl rfl hlt hmem hf
            | ok log =>
              rw [load_of_found_ok hf, Prod.mk.injEq] at h
              obtain ⟨rfl, rfl⟩ := h
              exact .loads _ a log rfl rfl hlt hmem hf
  · intro h
    cases h with
    | entry e rest hp => simp [advance, hp]
    | finished hend => simp [advance, hend.1, hend.2]
    | tooLong a hp hu hlen => simp [advance, hp, hu, hlen]
    | revisit a hp hu hlt hmem =>
      simp [advance, hp, hu, hmem, Nat.not_le.mpr hlt]
    | loadFails a f hp hu hlt hmem hf =>
      obtain ⟨source, state, config, owner, upcoming, visited, pending⟩ := c
      dsimp only at hp hu hlt hmem
      subst hp hu
      simp only [advance, hmem, Nat.not_le.mpr hlt, if_false]
      exact load_of_found_error hf
    | loads a log hp hu hlt hmem hf =>
      obtain ⟨source, state, config, owner, upcoming, visited, pending⟩ := c
      dsimp only at hp hu hlt hmem
      subst hp hu
      simp only [advance, hmem, Nat.not_le.mpr hlt, if_false]
      exact load_of_found_ok hf

/-- After a fault the walk is over. -/
theorem ended_of_advance_failed {f : Fault} (h : c.advance = (.failed f, c')) :
    c'.Ended := by
  cases advance_eq_iff.mp h with
  | tooLong a hp => exact ⟨hp, rfl⟩
  | revisit a hp => exact ⟨hp, rfl⟩
  | loadFails a f hp => exact ⟨hp, rfl⟩

theorem eq_of_advance_finished (h : c.advance = (.finished, c')) :
    c' = c ∧ c.Ended := by
  cases advance_eq_iff.mp h with
  | finished hend => exact ⟨rfl, hend⟩

theorem advance_of_ended (h : c.Ended) : c.advance = (.finished, c) :=
  advance_eq_iff.mpr (.finished c h)

theorem advance_of_cons {e : Entry} {rest : List Entry}
    (h : c.pending = e :: rest) :
    c.advance = (.entry e, { c with pending := rest }) :=
  advance_eq_iff.mpr (.entry c e rest h)

/-! ## `next` and `walk`, move by move -/

theorem next_of_entry {e : Entry} (h : c.advance = (.entry e, c')) :
    c.next = (some (.ok e), c') := by
  rw [next]; split <;> simp_all

theorem next_of_failed {f : Fault} (h : c.advance = (.failed f, c')) :
    c.next = (some (.error f), c') := by
  rw [next]; split <;> simp_all

theorem next_of_finished (h : c.advance = (.finished, c')) :
    c.next = (none, c') := by
  rw [next]; split <;> simp_all

theorem next_of_loaded (h : c.advance = (.loaded, c')) : c.next = c'.next := by
  rw [next]; split <;> simp_all

theorem walk_of_entry {e : Entry} (h : c.advance = (.entry e, c')) :
    c.walk = ((.ok e, c'.visited.length) :: c'.walk.1, c'.walk.2) := by
  rw [walk]; split <;> simp_all

theorem walk_of_failed {f : Fault} (h : c.advance = (.failed f, c')) :
    c.walk = ([(.error f, c'.visited.length)], c') := by
  rw [walk]; split <;> simp_all

theorem walk_of_finished (h : c.advance = (.finished, c')) :
    c.walk = ([], c') := by
  rw [walk]; split <;> simp_all

theorem walk_of_loaded (h : c.advance = (.loaded, c')) : c.walk = c'.walk := by
  rw [walk]; split <;> simp_all

/-- What every move keeps, a call of `next` keeps. -/
theorem next_preserves {P : Chain σ → Prop}
    (hP : ∀ {d : Chain σ} {m : ChainMove} {d' : Chain σ}, Step d m d' → P d → P d')
    (hc : P c) : P c.next.2 := by
  fun_induction next c with
  | case1 x e c' h => exact hP (advance_eq_iff.mp h) hc
  | case2 x f c' h => exact hP (advance_eq_iff.mp h) hc
  | case3 x c' h => exact hP (advance_eq_iff.mp h) hc
  | case4 x c' h ih => exact ih (hP (advance_eq_iff.mp h) hc)

/-- What every move keeps, any number of calls of `next` keeps. -/
theorem afterCalls_preserves {P : Chain σ → Prop}
    (hP : ∀ {d : Chain σ} {m : ChainMove} {d' : Chain σ}, Step d m d' → P d → P d')
    (hc : P c) (k : Nat) : P (c.afterCalls k) := by
  induction k generalizing c with
  | zero => exact hc
  | succ k ih => exact ih (next_preserves hP hc)

/-- A walk that is over stays where it is: `next` answers nothing and changes nothing. -/
theorem next_of_ended (h : c.Ended) : c.next = (none, c) :=
  next_of_finished (advance_of_ended h)

theorem walk_of_ended (h : c.Ended) : c.walk = ([], c) :=
  walk_of_finished (advance_of_ended h)

theorem afterCalls_of_ended (h : c.Ended) (k : Nat) : c.afterCalls k = c := by
  induction k with
  | zero => rfl
  | succ k ih => rw [afterCalls, next_of_ended h]; exact ih

theorem calls_of_ended (h : c.Ended) (k : Nat) :
    c.calls k = List.replicate k (none, c.visited.length) := by
  induction k with
  | zero => rfl
  | succ k ih => rw [calls, next_of_ended h, ih, List.replicate_succ]

/-- The pending entries come first, each with the logs visited so far. -/
theorem walk_pending (c : Chain σ) :
    c.walk.1 = c.pending.map (fun e => (.ok e, c.visited.length)) ++
        { c with pending := [] }.walk.1 ∧
      c.walk.2 = { c with pending := [] }.walk.2 := by
  cases hp : c.pending with
  | nil =>
    have hc : { c with pending := [] } = c := by rw [← hp]
    simp [hc]
  | cons e rest =>
    have ih := walk_pending { c with pending := rest }
    rw [walk_of_entry (advance_of_cons hp)]
    simpa using ih
termination_by c.pending.length
decreasing_by simp [hp]

/-- Every walk ends in a state that is over. -/
theorem walk_ended (c : Chain σ) : c.walk.2.Ended := by
  fun_induction walk c with
  | case1 x e c' h steps last hwalk ih =>
    rw [hwalk] at ih
    exact ih
  | case2 x f c' h => exact ended_of_advance_failed h
  | case3 x c' h =>
    obtain ⟨rfl, hx⟩ := eq_of_advance_finished h
    exact hx
  | case4 x c' h ih => exact ih

/-! ## Calling `next` again and again -/

/-- When the walk has no step left, a call of `next` answers nothing and leaves the walk at its
end. -/
theorem next_of_walk_nil (h : c.walk.1 = []) : c.next = (none, c.walk.2) := by
  fun_induction walk c with
  | case1 x e c' hx steps last hwalk ih => simp at h
  | case2 x f c' hx => simp at h
  | case3 x c' hx => rw [next_of_finished hx]
  | case4 x c' hx ih => rw [next_of_loaded hx, ih h]

/-- A call of `next` hands out the first step of the walk, with the same count of visited logs,
and the walk from where it leaves off is the rest of the steps, ending in the same place. -/
theorem next_of_walk_cons {r : Except Fault Entry} {n : Nat}
    {rest : List (Except Fault Entry × Nat)} (h : c.walk.1 = (r, n) :: rest) :
    c.next.1 = some r ∧ c.next.2.visited.length = n ∧ c.next.2.walk = (rest, c.walk.2) := by
  fun_induction walk c with
  | case1 x e c' hx steps last hwalk ih =>
    simp only [List.cons.injEq, Prod.mk.injEq] at h
    obtain ⟨⟨rfl, rfl⟩, rfl⟩ := h
    simp [next_of_entry hx, hwalk]
  | case2 x f c' hx =>
    simp only [List.cons.injEq, Prod.mk.injEq] at h
    obtain ⟨⟨rfl, rfl⟩, rfl⟩ := h
    simp [next_of_failed hx, walk_of_ended (ended_of_advance_failed hx)]
  | case3 x c' hx => simp at h
  | case4 x c' hx ih =>
    rw [next_of_loaded hx]
    exact ih h

/-- Calling `next` `k` times hands out the first `k` steps of the walk, each with its count of
visited logs, and nothing after the last step, with the count the walk ends at. -/
theorem calls_eq_walk (k : Nat) (c : Chain σ) :
    c.calls k =
      (c.walk.1.map (fun s : Except Fault Entry × Nat => (some s.1, s.2)) ++
        List.replicate k (none, c.walk.2.visited.length)).take k := by
  induction k generalizing c with
  | zero => rfl
  | succ k ih =>
    cases hw : c.walk.1 with
    | nil =>
      have hend := walk_ended c
      rw [calls, next_of_walk_nil hw, ih, walk_of_ended hend]
      simp [List.replicate_succ, List.take_replicate]
    | cons s rest =>
      obtain ⟨hr, hn, hnext⟩ := next_of_walk_cons hw
      rw [calls, ih, hr, hn, hnext]
      simp only [List.map_cons, List.cons_append, List.take_succ_cons,
        List.take_append, List.take_replicate, List.length_map]
      congr 3
      omega

end Chain
end SlabLedger
