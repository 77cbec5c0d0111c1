import Mathlib
import BaselineOps.Ipc.Control

/-!
# What the replay cache guarantees

Runs of `ReplayNonceCache::accept` (`baselineops-windows/src/ipc/replay.rs`, lines 39–74). The cache
is compared with the log of the calls it accepted (`Tracks`): it remembers the end of that log, and
what it forgot is at least `ttl` old or has `capacity` accepted calls behind it.

The model of the cache removes keys by recursion over `order`. The `while` loops of the source are
`evictExpiredLoop` and `evictCapacityLoop`, with a bound on the number of rounds.
-/

namespace BaselineOps.Windows

open BaselineOps.Lib

/-! ## The two loops -/

/-- `while self.order.len() >= self.capacity` (lines 56–60), at most `rounds` tests of the
    condition. -/
def ReplayNonceCache.evictCapacityLoop : ℕ → ReplayNonceCache → Option ReplayNonceCache
  | 0, _ => none
  | rounds + 1, cache =>
    if cache.capacity ≤ cache.order.length then
      match cache.order with
      | [] => evictCapacityLoop rounds cache
      | oldest :: order =>
        evictCapacityLoop rounds { cache with order := order, seen := cache.seen.erase oldest }
    else some cache

/-- `while let Some(nonce) = self.order.front()` (lines 63–73), at most `rounds` tests. -/
def ReplayNonceCache.evictExpiredLoop (now : ℕ) : ℕ → ReplayNonceCache → Option ReplayNonceCache
  | 0, _ => none
  | rounds + 1, cache =>
    match cache.order with
    | [] => some cache
    | nonce :: order =>
      match cache.seen.lookup nonce with
      | none => evictExpiredLoop now rounds { cache with order := order }
      | some acceptedAt =>
        if now - acceptedAt < cache.ttl then some cache
        else evictExpiredLoop now rounds
          { cache with order := order, seen := cache.seen.erase nonce }

theorem ReplayNonceCache.evictCapacityLoop_eq (cache : ReplayNonceCache) :
    evictCapacityLoop (cache.order.length + 1) cache = some cache.evictCapacity := by
  obtain ⟨ttl, capacity, seen, order, httl, hcapacity⟩ := cache
  induction order generalizing seen with
  | nil =>
    have hnot : ¬ capacity ≤ ([] : List String).length := Nat.not_le.mpr hcapacity
    simp only [evictCapacityLoop, if_neg hnot]
    rfl
  | cons oldest order ih =>
    by_cases hfull : capacity ≤ (oldest :: order).length
    · simp only [evictCapacityLoop, evictCapacity, ReplayCache.evictCapacity, if_pos hfull]
      exact ih _
    · simp only [evictCapacityLoop, evictCapacity, ReplayCache.evictCapacity, if_neg hfull]

theorem ReplayNonceCache.evictExpiredLoop_eq (cache : ReplayNonceCache) (now : ℕ) :
    evictExpiredLoop now (cache.order.length + 1) cache = some (cache.evictExpired now) := by
  obtain ⟨ttl, capacity, seen, order, httl, hcapacity⟩ := cache
  induction order generalizing seen with
  | nil => rfl
  | cons nonce order ih =>
    cases hlookup : seen.lookup nonce with
    | none =>
      simp only [evictExpiredLoop, evictExpired, ReplayCache.evictExpired, hlookup]
      exact ih _
    | some acceptedAt =>
      by_cases hyoung : now - acceptedAt < ttl
      · simp only [evictExpiredLoop, evictExpired, ReplayCache.evictExpired, hlookup,
          if_pos hyoung]
      · simp only [evictExpiredLoop, evictExpired, ReplayCache.evictExpired, hlookup,
          if_neg hyoung]
        exact ih _

/-! ## One call -/

/-- The representation invariant: `order` and `seen` hold the same nonces, oldest first. -/
structure ReplayNonceCache.Consistent (cache : ReplayNonceCache) : Prop where
  nodup : cache.order.Nodup
  keys : ∀ nonce, nonce ∈ cache.order ↔ nonce ∈ cache.seen
  times : cache.order.Pairwise fun a b =>
    ∃ s t, cache.seen.lookup a = some s ∧ cache.seen.lookup b = some t ∧ s ≤ t
  length_le : cache.order.length ≤ cache.capacity

/-- The cache remembers the end of the log of accepted calls. -/
def ReplayNonceCache.Tracks (cache : ReplayNonceCache) (now : ℕ) (log : List (String × ℕ)) : Prop :=
  ∃ entries forgotten, ReplayCache.Holds cache.order cache.seen entries ∧
    ReplayCache.Remembers cache.ttl cache.capacity now log entries forgotten

variable {cache : ReplayNonceCache} {now : ℕ} {log : List (String × ℕ)}

theorem ReplayNonceCache.Tracks.later (h : cache.Tracks now log) {later : ℕ} (hle : now ≤ later) :
    cache.Tracks later log := by
  obtain ⟨entries, forgotten, hholds, hremembers⟩ := h
  exact ⟨entries, forgotten, hholds, hremembers.later hle⟩

theorem ReplayNonceCache.Tracks.consistent (h : cache.Tracks now log) : cache.Consistent := by
  obtain ⟨entries, forgotten, hholds, hremembers⟩ := h
  refine ⟨?_, ?_, ?_, ?_⟩
  · rw [hholds.order]
    exact hholds.nodup
  · intro nonce
    rw [hholds.mem_iff, hholds.order]
  · rw [hholds.order, List.pairwise_map]
    refine hremembers.sorted_entries.imp_of_mem ?_
    intro a b ha hb hle
    exact ⟨a.2, b.2, (hholds.seen _ _).mpr ha, (hholds.seen _ _).mpr hb, hle⟩
  · rw [hholds.order, List.length_map]
    exact hremembers.room

theorem ReplayNonceCache.Tracks.evictExpired (h : cache.Tracks now log) :
    (cache.evictExpired now).Tracks now log := by
  obtain ⟨entries, forgotten, hholds, hremembers⟩ := h
  obtain ⟨n, hkept⟩ := hremembers.evictExpired
  exact ⟨_, n, hholds.evictExpired cache.ttl now, hkept⟩

theorem ReplayNonceCache.Tracks.push (h : cache.Tracks now log) {nonce : String}
    (hnew : nonce ∉ cache.evictCapacity.seen) :
    ({ cache.evictCapacity with
        seen := cache.evictCapacity.seen.insert nonce now
        order := cache.evictCapacity.order ++ [nonce] } : ReplayNonceCache).Tracks now
      (log ++ [(nonce, now)]) := by
  obtain ⟨entries, forgotten, hholds, hremembers⟩ := h
  obtain ⟨n, hpushed⟩ := hremembers.push cache.capacity_pos nonce
  exact ⟨_, n, (hholds.evictCapacity cache.capacity).push hnew now, hpushed⟩

/-- Making room does not bring a nonce back. -/
theorem ReplayNonceCache.Tracks.not_mem_evictCapacity (h : cache.Tracks now log) {nonce : String}
    (hnot : nonce ∉ cache.seen) : nonce ∉ cache.evictCapacity.seen := by
  obtain ⟨entries, forgotten, hholds, -⟩ := h
  intro hmem
  apply hnot
  have hkept := (hholds.evictCapacity cache.capacity).mem_iff.mp hmem
  rw [hholds.mem_iff]
  exact (List.Sublist.map Prod.fst (List.drop_sublist _ _)).mem hkept

/-- The answer of a call and the cache behind it. -/
theorem ReplayNonceCache.Tracks.accept (h : cache.Tracks now log) (nonce : String) :
    ((cache.accept nonce now).1 = .ok () ∧ validNonce nonce = true ∧
        nonce ∉ (cache.evictExpired now).seen ∧
        (cache.accept nonce now).2.Tracks now (log ++ [(nonce, now)])) ∨
      (∃ e, (cache.accept nonce now).1 = .error e) ∧
        (validNonce nonce = true → nonce ∈ (cache.evictExpired now).seen) ∧
        ((cache.accept nonce now).2 = cache ∨
          (cache.accept nonce now).2 = cache.evictExpired now) := by
  unfold ReplayNonceCache.accept
  by_cases hvalid : validNonce nonce = true
  · simp only [hvalid, not_true_eq_false, if_false]
    by_cases hseen : nonce ∈ (cache.evictExpired now).seen
    · rw [if_pos hseen]
      exact .inr ⟨⟨_, rfl⟩, fun _ => hseen, .inr rfl⟩
    · rw [if_neg hseen]
      have htracks := h.evictExpired
      exact .inl ⟨rfl, trivial, hseen, htracks.push (htracks.not_mem_evictCapacity hseen)⟩
  · rw [if_pos hvalid]
    exact .inr ⟨⟨_, rfl⟩, fun h => absurd h hvalid, .inl rfl⟩

theorem ReplayNonceCache.accept_bounds (cache : ReplayNonceCache) (nonce : String) (now : ℕ) :
    (cache.accept nonce now).2.ttl = cache.ttl ∧
      (cache.accept nonce now).2.capacity = cache.capacity := by
  unfold ReplayNonceCache.accept
  simp only
  split_ifs <;> exact ⟨rfl, rfl⟩

/-- Expiry only removes. -/
theorem ReplayNonceCache.Tracks.evictExpired_le (h : cache.Tracks now log) :
    (cache.evictExpired now).order <:+ cache.order ∧
      ∀ nonce time, (cache.evictExpired now).seen.lookup nonce = some time →
        cache.seen.lookup nonce = some time := by
  obtain ⟨entries, forgotten, hholds, -⟩ := h
  have hkept := hholds.evictExpired cache.ttl now
  have hsuffix := List.dropWhile_suffix (l := entries)
    (fun entry : String × ℕ => decide (cache.ttl ≤ now - entry.2))
  constructor
  · have horder : (cache.evictExpired now).order = _ := hkept.order
    rw [horder, hholds.order]
    exact hsuffix.map _
  · intro nonce time hlookup
    exact (hholds.seen nonce time).mpr (hsuffix.subset ((hkept.seen nonce time).mp hlookup))

/-! ## Runs -/

/-- The cache behind a run of calls `(nonce, now)`. -/
def ReplayNonceCache.after (cache : ReplayNonceCache) (calls : List (String × ℕ)) :
    ReplayNonceCache :=
  calls.foldl (fun cache call => (cache.accept call.1 call.2).2) cache

/-- The `i`-th call of the run is accepted. -/
def ReplayNonceCache.accepts (cache : ReplayNonceCache) (calls : List (String × ℕ)) (i : ℕ) : Bool :=
  calls[i]?.any fun call => ((cache.after (calls.take i)).accept call.1 call.2).1.isOk

/-- The accepted ones of the first `n` calls. -/
def ReplayNonceCache.acceptedLog (cache : ReplayNonceCache) (calls : List (String × ℕ)) (n : ℕ) :
    List (String × ℕ) :=
  ((List.range n).filter (cache.accepts calls)).filterMap fun i => calls[i]?

variable {calls : List (String × ℕ)} {i : ℕ} {call : String × ℕ}

theorem ReplayNonceCache.after_take_succ (hcall : calls[i]? = some call) :
    cache.after (calls.take (i + 1)) = ((cache.after (calls.take i)).accept call.1 call.2).2 := by
  unfold ReplayNonceCache.after
  rw [List.take_add_one, hcall, Option.toList_some, List.foldl_append]
  rfl

theorem ReplayNonceCache.accepts_iff (hcall : calls[i]? = some call) :
    cache.accepts calls i = true ↔
      ((cache.after (calls.take i)).accept call.1 call.2).1 = .ok () := by
  unfold ReplayNonceCache.accepts
  rw [hcall, Option.any_some]
  cases ((cache.after (calls.take i)).accept call.1 call.2).1 with
  | error e => simp [Except.isOk, Except.toBool]
  | ok u => simp [Except.isOk, Except.toBool]

theorem ReplayNonceCache.acceptedLog_succ (hcall : calls[i]? = some call) :
    cache.acceptedLog calls (i + 1) = cache.acceptedLog calls i ++
      if cache.accepts calls i then [call] else [] := by
  unfold ReplayNonceCache.acceptedLog
  rw [List.range_succ, List.filter_append, List.filterMap_append]
  cases haccepts : cache.accepts calls i with
  | false => simp [haccepts]
  | true => simp [haccepts, hcall]

/-- Between two calls the log grows by the calls accepted there. -/
theorem ReplayNonceCache.acceptedLog_split {j : ℕ} (hij : i < j) (hj : j ≤ calls.length)
    (hcall : calls[i]? = some call) (haccepts : cache.accepts calls i = true) :
    ∃ between, cache.acceptedLog calls j = cache.acceptedLog calls i ++ call :: between ∧
      between.length = (List.Ico (i + 1) j).countP (cache.accepts calls) := by
  induction j, hij using Nat.le_induction with
  | base =>
    refine ⟨[], ?_, by simp⟩
    rw [acceptedLog_succ hcall, if_pos haccepts]
  | succ j hle ih =>
    obtain ⟨between, hlog, hlength⟩ := ih (Nat.le_of_succ_le hj)
    have hcall' : calls[j]? = some calls[j] := List.getElem?_eq_getElem hj
    have hIco : List.Ico (i + 1) (j + 1) = List.Ico (i + 1) j ++ [j] := List.Ico.succ_top hle
    rw [acceptedLog_succ hcall', hlog, hIco, List.countP_append, ← hlength]
    refine ⟨between ++ if cache.accepts calls j then [calls[j]] else [], ?_, ?_⟩
    · rw [List.append_assoc, List.cons_append]
    · rw [List.length_append]
      cases haccepts' : cache.accepts calls j with
      | false => simp [haccepts']
      | true => simp [haccepts']

theorem ReplayNonceCache.after_bounds (cache : ReplayNonceCache) (calls : List (String × ℕ)) :
    (cache.after calls).ttl = cache.ttl ∧ (cache.after calls).capacity = cache.capacity := by
  unfold ReplayNonceCache.after
  induction calls generalizing cache with
  | nil => exact ⟨rfl, rfl⟩
  | cons call calls ih =>
    obtain ⟨httl, hcapacity⟩ := cache.accept_bounds call.1 call.2
    obtain ⟨httl', hcapacity'⟩ := ih (cache.accept call.1 call.2).2
    exact ⟨httl'.trans httl, hcapacity'.trans hcapacity⟩

/-- One call of a run. -/
theorem ReplayNonceCache.Tracks.step (hcall : calls[i]? = some call)
    (h : (cache.after (calls.take i)).Tracks call.2 (cache.acceptedLog calls i)) :
    (cache.after (calls.take (i + 1))).Tracks call.2 (cache.acceptedLog calls (i + 1)) := by
  rw [after_take_succ hcall, acceptedLog_succ hcall]
  obtain ⟨hok, -, -, hpushed⟩ | ⟨⟨e, herror⟩, -, hsame⟩ := h.accept call.1
  · rw [if_pos ((accepts_iff hcall).mpr hok)]
    exact hpushed
  · have hrejected : cache.accepts calls i = false := by
      rw [Bool.eq_false_iff, Ne, accepts_iff hcall, herror]
      simp
    rw [hrejected, if_neg (by simp), List.append_nil]
    obtain hsame | hsame := hsame
    · rw [hsame]
      exact h
    · rw [hsame]
      exact h.evictExpired

/-- The cache tracks its log when a call comes in, at the time of that call. -/
theorem ReplayNonceCache.tracks_run (h : cache.Tracks 0 [])
    (htimes : (calls.map Prod.snd).Pairwise (· ≤ ·)) (hcall : calls[i]? = some call) :
    (cache.after (calls.take i)).Tracks call.2 (cache.acceptedLog calls i) := by
  induction i generalizing call with
  | zero => exact h.later (Nat.zero_le _)
  | succ i ih =>
    obtain ⟨hlt, hget⟩ := List.getElem?_eq_some_iff.mp hcall
    have hprev : calls[i]? = some calls[i] := List.getElem?_eq_getElem (Nat.lt_of_succ_lt hlt)
    have hle : calls[i].2 ≤ call.2 := by
      have hpairwise := List.pairwise_iff_getElem.mp (List.pairwise_map.mp htimes) i (i + 1)
        (Nat.lt_of_succ_lt hlt) hlt (Nat.lt_succ_self i)
      rwa [hget] at hpairwise
    exact ((ih hprev).step hprev).later hle

theorem ReplayNonceCache.consistent_run (h : cache.Tracks 0 [])
    (htimes : (calls.map Prod.snd).Pairwise (· ≤ ·)) (i : ℕ) :
    (cache.after (calls.take i)).Consistent := by
  induction i with
  | zero => exact h.consistent
  | succ i ih =>
    cases hcall : calls[i]? with
    | none =>
      rw [List.take_add_one, hcall, Option.toList_none, List.append_nil]
      exact ih
    | some call => exact ((tracks_run h htimes hcall).step hcall).consistent

/-- A rejected call adds nothing. -/
theorem ReplayNonceCache.rejected_adds_nothing (h : cache.Tracks 0 [])
    (htimes : (calls.map Prod.snd).Pairwise (· ≤ ·)) (hcall : calls[i]? = some call)
    (hrejected : cache.accepts calls i = false) :
    (cache.after (calls.take (i + 1))).order <:+ (cache.after (calls.take i)).order ∧
      ∀ nonce time, (cache.after (calls.take (i + 1))).seen.lookup nonce = some time →
        (cache.after (calls.take i)).seen.lookup nonce = some time := by
  have htracks := tracks_run h htimes hcall
  rw [after_take_succ hcall]
  obtain ⟨hok, -⟩ | ⟨-, -, hsame | hsame⟩ := htracks.accept call.1
  · rw [(accepts_iff hcall).mpr hok] at hrejected
    cases hrejected
  · rw [hsame]
    exact ⟨List.suffix_rfl, fun _ _ h => h⟩
  · rw [hsame]
    exact htracks.evictExpired_le

/-- A nonce that is accepted again was forgotten. -/
theorem ReplayNonceCache.accepted_again (h : cache.Tracks 0 [])
    (htimes : (calls.map Prod.snd).Pairwise (· ≤ ·)) {j s t : ℕ} {nonce : String} (hij : i < j)
    (hi : calls[i]? = some (nonce, s)) (hj : calls[j]? = some (nonce, t))
    (haccepts : cache.accepts calls i = true) (hagain : cache.accepts calls j = true) :
    cache.ttl ≤ t - s ∨ cache.capacity ≤ (List.Ico (i + 1) j).countP (cache.accepts calls) := by
  obtain ⟨hlt, -⟩ := List.getElem?_eq_some_iff.mp hj
  have htracks := tracks_run h htimes hj
  have hbounds := cache.after_bounds (calls.take j)
  obtain ⟨between, hlog, hlength⟩ := acceptedLog_split hij (Nat.le_of_lt hlt) hi haccepts
  obtain ⟨-, -, hnot, -⟩ | ⟨⟨e, herror⟩, -⟩ := htracks.accept nonce
  · obtain ⟨entries, forgotten, hholds, hremembers⟩ := htracks.evictExpired
    have hat : (cache.acceptedLog calls j)[(cache.acceptedLog calls i).length]? =
        some (nonce, s) := by
      rw [hlog, List.getElem?_append_right (Nat.le_refl _), Nat.sub_self, List.getElem?_cons_zero]
    have hgone : (nonce, s) ∉ entries := by
      intro hmem
      exact hnot (hholds.mem_iff.mpr (List.mem_map_of_mem hmem))
    obtain hold | hmany := hremembers.of_not_mem hat hgone
    · exact .inl (hbounds.1 ▸ hold)
    · right
      have hcapacity : ((cache.after (calls.take j)).evictExpired t).capacity = cache.capacity :=
        hbounds.2
      rw [hcapacity, hlog, List.length_append, List.length_cons, hlength] at hmany
      omega
  · rw [accepts_iff hj, herror] at hagain
    cases hagain

/-- A well-formed nonce that was not accepted within the window is accepted. -/
theorem ReplayNonceCache.accepts_fresh (h : cache.Tracks 0 [])
    (htimes : (calls.map Prod.snd).Pairwise (· ≤ ·)) {j t : ℕ} {nonce : String}
    (hj : calls[j]? = some (nonce, t)) (hvalid : validNonce nonce = true)
    (hfresh : ∀ i s, i < j → calls[i]? = some (nonce, s) → cache.accepts calls i = true →
      cache.ttl ≤ t - s) : cache.accepts calls j = true := by
  have htracks := tracks_run h htimes hj
  rw [accepts_iff hj]
  obtain ⟨hok, -⟩ | ⟨-, hseen, -⟩ := htracks.accept nonce
  · exact hok
  · exfalso
    obtain ⟨entries, forgotten, hholds, hremembers⟩ := htracks
    have hkept := hholds.evictExpired (cache.after (calls.take j)).ttl t
    obtain ⟨⟨accepted, s⟩, hmem, hnonce⟩ := List.mem_map.mp (hkept.mem_iff.mp (hseen hvalid))
    have hnonce : accepted = nonce := hnonce
    subst hnonce
    -- what is left after the expiry is sorted, so that all of it is young
    have hyoung : t - s < cache.ttl := by
      rw [← (cache.after_bounds (calls.take j)).1]
      exact ReplayCache.young_of_mem_dropWhile hremembers.sorted_entries hmem
    have hlogged : (accepted, s) ∈ cache.acceptedLog calls j := by
      have hentry := (List.dropWhile_sublist _).mem hmem
      rw [hremembers.remembered] at hentry
      exact List.mem_of_mem_drop hentry
    unfold ReplayNonceCache.acceptedLog at hlogged
    obtain ⟨i, hi, hcall⟩ := List.mem_filterMap.mp hlogged
    obtain ⟨hrange, haccepts⟩ := List.mem_filter.mp hi
    have hold := hfresh i s (List.mem_range.mp hrange) hcall haccepts
    omega

theorem ReplayNonceCache.new_tracks {ttl capacity : ℕ} (httl : 0 < ttl) (hcapacity : 0 < capacity) :
    (⟨ttl, capacity, ∅, [], httl, hcapacity⟩ : ReplayNonceCache).Tracks 0 [] :=
  ⟨[], 0, ReplayCache.holds_empty, ReplayCache.remembers_empty ttl capacity 0⟩

/-- Every run of a new cache with positive bounds: both loops end, whatever the cache; the invariant
    holds behind every call; a rejected call adds nothing; a nonce is accepted twice only `ttl` apart
    or with `capacity` accepted calls in between; and a well-formed nonce that was not accepted in
    the last `ttl` is accepted. -/
theorem replayNonceCache_guarantee {ttl capacity : ℕ} (httl : 0 < ttl) (hcapacity : 0 < capacity)
    {calls : List (String × ℕ)} (htimes : (calls.map Prod.snd).Pairwise (· ≤ ·)) :
    ∃ cache, ReplayNonceCache.new ttl capacity = .ok cache ∧
      (∀ c : ReplayNonceCache, (∃ rounds, c.evictCapacityLoop rounds = some c.evictCapacity) ∧
        ∀ now, ∃ rounds, c.evictExpiredLoop now rounds = some (c.evictExpired now)) ∧
      (∀ i, (cache.after (calls.take i)).Consistent ∧
        (cache.after (calls.take i)).capacity = capacity) ∧
      (∀ i call, calls[i]? = some call → cache.accepts calls i = false →
        (cache.after (calls.take (i + 1))).order <:+ (cache.after (calls.take i)).order ∧
          ∀ nonce time, (cache.after (calls.take (i + 1))).seen.lookup nonce = some time →
            (cache.after (calls.take i)).seen.lookup nonce = some time) ∧
      (∀ i j nonce s t, i < j → calls[i]? = some (nonce, s) → calls[j]? = some (nonce, t) →
        cache.accepts calls i = true → cache.accepts calls j = true →
        ttl ≤ t - s ∨ capacity ≤ (List.Ico (i + 1) j).countP (cache.accepts calls)) ∧
      ∀ j nonce t, calls[j]? = some (nonce, t) → validNonce nonce = true →
        (∀ i s, i < j → calls[i]? = some (nonce, s) → cache.accepts calls i = true → ttl ≤ t - s) →
        cache.accepts calls j = true := by
  have hnew : ReplayNonceCache.new ttl capacity = .ok ⟨ttl, capacity, ∅, [], httl, hcapacity⟩ :=
    dif_pos ⟨httl, hcapacity⟩
  have htracks := ReplayNonceCache.new_tracks httl hcapacity
  refine ⟨_, hnew, ?_, ?_, ?_, ?_, ?_⟩
  · intro c
    exact ⟨⟨_, c.evictCapacityLoop_eq⟩, fun now => ⟨_, c.evictExpiredLoop_eq now⟩⟩
  · intro i
    exact ⟨ReplayNonceCache.consistent_run htracks htimes i,
      (ReplayNonceCache.after_bounds _ (calls.take i)).2⟩
  · intro i call hcall hrejected
    exact ReplayNonceCache.rejected_adds_nothing htracks htimes hcall hrejected
  · intro i j nonce s t hij hi hj haccepts hagain
    exact ReplayNonceCache.accepted_again htracks htimes hij hi hj haccepts hagain
  · intro j nonce t hj hvalid hfresh
    exact ReplayNonceCache.accepts_fresh htracks htimes hj hvalid hfresh

/-- Capacity one: the second nonce pushes the first one out, which is then accepted again. -/
theorem replayNonceCache_guarantee_sample :
    ∃ cache, ReplayNonceCache.new 1000 1 = .ok cache ∧
      (cache.after [("a1", 0), ("b2", 0), ("a1", 5)]).Consistent := by
  obtain ⟨cache, hnew, -, hconsistent, -⟩ := @replayNonceCache_guarantee 1000 1 (by decide)
    (by decide) [("a1", 0), ("b2", 0), ("a1", 5)] (by decide)
  exact ⟨cache, hnew, (hconsistent 3).1⟩

end BaselineOps.Windows
