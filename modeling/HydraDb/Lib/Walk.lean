import Mathlib.Data.Set.Lattice
import Mathlib.Order.Nat

/-!
# Walks and searches

For a relation `R`, `Walk.Path R n a b` says that `n` steps lead from `a` to `b`, and
`Walk.layer R S n` is what walks of exactly `n` steps from `S` end at. Two searches are related to
it. The one that keeps every walk computes the layers themselves, and may stop at an empty one
(`rounds_window`). The one that leaves out what it has seen computes what is within `n` steps, and
may stop when nothing new is found (`rounds_searched`).
-/

namespace Walk

open Nat

variable {α β : Type*} (R : α → α → Prop)

variable {L : ℕ → Set α}

/-- `n` steps lead from one element to another. -/
inductive Path : ℕ → α → α → Prop
  | refl (a : α) : Path 0 a a
  | step {n : ℕ} {a b c : α} : Path n a b → R b c → Path (n + 1) a c

/-- What is one step from a set. -/
def next (S : Set α) : Set α := {b | ∃ a ∈ S, R a b}

/-- What is at the end of a walk of exactly `n` steps from a set. -/
def layer (S : Set α) : ℕ → Set α
  | 0 => S
  | n + 1 => next R (layer S n)

/-- What is in one of the sets `m` to `n` of a sequence. -/
def window (L : ℕ → Set α) (m n : ℕ) : Set α := {b | ∃ k, m ≤ k ∧ k ≤ n ∧ b ∈ L k}

/-- What is at the end of a walk of `m` to `n` steps. -/
def between (S : Set α) (m n : ℕ) : Set α := window (layer R S) m n

variable {R} {S : Set α} {m n k : ℕ} {a b : α}

theorem mem_layer : b ∈ layer R S n ↔ ∃ a ∈ S, Path R n a b := by
  induction n generalizing b with
  | zero =>
    constructor
    · exact fun h => ⟨b, h, .refl b⟩
    · rintro ⟨a, ha, ⟨⟩⟩
      exact ha
  | succ n ih =>
    constructor
    · rintro ⟨c, hc, hcb⟩
      obtain ⟨a, ha, hac⟩ := ih.1 hc
      exact ⟨a, ha, hac.step hcb⟩
    · rintro ⟨a, ha, h⟩
      cases h with
      | step hac hcb => exact ⟨_, ih.2 ⟨a, ha, hac⟩, hcb⟩

theorem mem_layer_singleton : b ∈ layer R {x | x ∈ [a]} n ↔ Path R n a b := by
  rw [mem_layer]
  constructor
  · rintro ⟨x, hx, h⟩
    rwa [List.mem_singleton.1 hx] at h
  · exact fun h => ⟨a, List.mem_singleton_self a, h⟩

theorem next_mono (h : S ⊆ T) : next R S ⊆ next R T := fun _ ⟨a, ha, hab⟩ => ⟨a, h ha, hab⟩

theorem next_empty : next R ∅ = ∅ := by
  refine Set.eq_empty_of_forall_notMem ?_
  rintro _ ⟨_, h, _⟩
  exact h

theorem layer_eq_empty (h : layer R S n = ∅) (hk : n ≤ k) : layer R S k = ∅ := by
  induction k, hk using le_induction with
  | base => exact h
  | succ k _ ih => rw [layer, ih, next_empty]

theorem window_succ : window L m (n + 1) = window L m n ∪ {b | m ≤ n + 1 ∧ b ∈ L (n + 1)} := by
  ext b
  constructor
  · rintro ⟨k, hm, hk, hb⟩
    rcases hk.eq_or_lt with rfl | hk
    · exact .inr ⟨hm, hb⟩
    · exact .inl ⟨k, hm, le_of_lt_succ hk, hb⟩
  · rintro (⟨k, hm, hk, hb⟩ | ⟨hm, hb⟩)
    · exact ⟨k, hm, le_succ_of_le hk, hb⟩
    · exact ⟨n + 1, hm, le_refl _, hb⟩

theorem window_self : window L n n = L n := by
  ext b
  constructor
  · rintro ⟨k, hm, hk, hb⟩
    rwa [le_antisymm hk hm] at hb
  · exact fun hb => ⟨n, le_refl n, le_refl n, hb⟩

theorem window_congr (h : ∀ k ≤ n, L k = L' k) : window L m n = window L' m n := by
  ext b
  constructor <;> rintro ⟨k, hm, hk, hb⟩
  · exact ⟨k, hm, hk, h k hk ▸ hb⟩
  · exact ⟨k, hm, hk, (h k hk).symm ▸ hb⟩

/-- Empty sets add nothing. -/
theorem window_eq_of_empty (h : ∀ i, n < i → L i = ∅) (hk : n ≤ k) :
    window L m k = window L m n := by
  induction k, hk using le_induction with
  | base => rfl
  | succ k hnk ih =>
    rw [window_succ, ih, h (k + 1) (lt_succ_of_le hnk)]
    exact Set.union_eq_self_of_subset_right fun _ hb => absurd hb.2 (Set.notMem_empty _)

theorem between_succ : between R S m (n + 1) =
    between R S m n ∪ {b | m ≤ n + 1 ∧ b ∈ layer R S (n + 1)} := window_succ

theorem between_eq_empty (h : n < m) : between R S m n = ∅ := by
  refine Set.eq_empty_of_forall_notMem ?_
  rintro _ ⟨k, hm, hn, -⟩
  exact absurd (hm.trans hn) (not_le.2 h)

theorem between_empty : between R ∅ m n = ∅ := by
  refine Set.eq_empty_of_forall_notMem ?_
  rintro _ ⟨k, -, -, hb⟩
  rw [layer_eq_empty rfl (zero_le k)] at hb
  exact hb

/-! ## The search that leaves out what it has seen -/

/-- After `n` rounds: everything within `n` steps is seen, and what is exactly `n` steps away and
no less is at the frontier. -/
structure Searched (R : α → α → Prop) (S : Set α) (n : ℕ) (seen frontier : Set α) : Prop where
  seen_eq : seen = between R S 0 n
  frontier_subset : frontier ⊆ layer R S n
  covers : ∀ b ∈ layer R S n, b ∈ frontier ∨ ∃ k < n, b ∈ layer R S k

namespace Searched

variable {seen frontier : Set α}

theorem init : Searched R S 0 S S where
  seen_eq := by
    ext b
    constructor
    · exact fun h => ⟨0, le_refl 0, le_refl 0, h⟩
    · rintro ⟨k, -, hk, hb⟩
      rwa [le_zero.1 hk] at hb
  frontier_subset := subset_rfl
  covers _ hb := .inl hb

/-- One round. -/
theorem step (h : Searched R S n seen frontier) :
    Searched R S (n + 1) (seen ∪ (next R frontier \ seen)) (next R frontier \ seen) := by
  have hsub : next R frontier ⊆ layer R S (n + 1) := next_mono h.frontier_subset
  have hcovers : ∀ b ∈ layer R S (n + 1), b ∈ next R frontier ∨ ∃ k < n + 1, b ∈ layer R S k := by
    rintro b ⟨a, ha, hab⟩
    rcases h.covers a ha with ha | ⟨k, hk, ha⟩
    · exact .inl ⟨a, ha, hab⟩
    · exact .inr ⟨k + 1, succ_lt_succ hk, a, ha, hab⟩
  have hseen : ∀ b, (∃ k < n + 1, b ∈ layer R S k) ↔ b ∈ seen := by
    intro b
    rw [h.seen_eq]
    constructor
    · rintro ⟨k, hk, hb⟩
      exact ⟨k, zero_le k, le_of_lt_succ hk, hb⟩
    · rintro ⟨k, -, hk, hb⟩
      exact ⟨k, lt_succ_of_le hk, hb⟩
  refine ⟨?_, Set.sdiff_subset.trans hsub, fun b hb => ?_⟩
  · rw [Set.union_sdiff_self, between_succ, ← h.seen_eq]
    ext b
    constructor
    · rintro (hb | hb)
      · exact .inl hb
      · exact .inr ⟨zero_le _, hsub hb⟩
    · rintro (hb | ⟨-, hb⟩)
      · exact .inl hb
      · exact (hcovers b hb).elim .inr fun hk => .inl ((hseen b).1 hk)
  · by_cases hk : ∃ k < n + 1, b ∈ layer R S k
    · exact .inr hk
    · exact .inl ⟨(hcovers b hb).resolve_right hk, fun hs => hk ((hseen b).2 hs)⟩

/-- When a round finds nothing new, everything that can be reached is seen. -/
theorem stop (h : Searched R S n seen frontier) (hnew : next R frontier \ seen = ∅)
    (hk : n ≤ k) : seen = between R S 0 k := by
  have hstep := h.step
  rw [hnew, Set.union_empty] at hstep
  have hall : ∀ k, n + 1 ≤ k → Searched R S k seen ∅ := by
    intro k hk
    induction k, hk using le_induction with
    | base => exact hstep
    | succ k _ ih =>
      have hnext := ih.step
      rwa [next_empty, Set.empty_sdiff, Set.union_empty] at hnext
  rcases hk.eq_or_lt with rfl | hk
  · exact h.seen_eq
  · exact (hall k hk).seen_eq

end Searched

/-- What is within `n` steps and not at the start is what walks of at least one step lead to. -/
theorem between_zero_diff : between R S 0 n \ S = between R S 1 n \ S := by
  ext b
  constructor
  · rintro ⟨⟨k, -, hk, hb⟩, hS⟩
    refine ⟨⟨k, ?_, hk, hb⟩, hS⟩
    rcases k with _ | k
    · exact absurd hb hS
    · exact succ_le_succ (zero_le k)
  · rintro ⟨⟨k, -, hk, hb⟩, hS⟩
    exact ⟨⟨k, zero_le k, hk, hb⟩, hS⟩

/-! ## The search that leaves out its own frontier

A search that asks for the successors of a frontier and is not told of those in the frontier
itself, apart from what a second relation adds. -/

/-- The frontiers of that search. -/
def maskedLayer (R A : α → α → Prop) (S : Set α) : ℕ → Set α
  | 0 => S
  | n + 1 => {b | b ∈ next R (maskedLayer R A S n) ∧
      (b ∉ maskedLayer R A S n ∨ b ∈ next A (maskedLayer R A S n))}

section

variable {A : α → α → Prop}

theorem maskedLayer_subset : maskedLayer R A S n ⊆ layer R S n := by
  induction n with
  | zero => exact subset_rfl
  | succ n ih => exact fun b hb => next_mono ih hb.1

theorem maskedLayer_eq_empty (h : maskedLayer R A S n = ∅) (hk : n ≤ k) :
    maskedLayer R A S k = ∅ := by
  induction k, hk using le_induction with
  | base => exact h
  | succ k _ ih =>
    rw [maskedLayer, ih, next_empty]
    exact Set.eq_empty_of_forall_notMem fun b hb => hb.1

/-- What no shorter walk leads to is not left out. -/
theorem mem_maskedLayer_of_shortest (hb : b ∈ layer R S n) (short : ∀ k < n, b ∉ layer R S k) :
    b ∈ maskedLayer R A S n := by
  induction n generalizing b with
  | zero => exact hb
  | succ n ih =>
    obtain ⟨a, ha, hab⟩ := hb
    have hmem : a ∈ maskedLayer R A S n := ih ha fun k hk hak =>
      short (k + 1) (succ_lt_succ hk) ⟨a, hak, hab⟩
    exact ⟨⟨a, hmem, hab⟩, .inl fun hb => short n (lt_succ_self n) (maskedLayer_subset hb)⟩

/-- Beyond the start, the search finds what walks lead to. -/
theorem window_maskedLayer_diff : window (maskedLayer R A S) 1 n \ S = between R S 1 n \ S := by
  classical
  ext b
  constructor
  · rintro ⟨⟨k, hk, hn, hb⟩, hS⟩
    exact ⟨⟨k, hk, hn, maskedLayer_subset hb⟩, hS⟩
  rintro ⟨⟨k, hk, hn, hb⟩, hS⟩
  have hex : ∃ i, b ∈ layer R S i := ⟨k, hb⟩
  have hle : Nat.find hex ≤ k := Nat.find_min' hex hb
  refine ⟨⟨Nat.find hex, ?_, hle.trans hn, mem_maskedLayer_of_shortest (Nat.find_spec hex)
    fun i hi => Nat.find_min hex hi⟩, hS⟩
  rw [Nat.one_le_iff_ne_zero]
  intro hzero
  have hspec := Nat.find_spec hex
  rw [hzero] at hspec
  exact hS hspec

/-- The search keeps every walk exactly when each member of a layer that is one step from the layer
is added by the second relation. -/
theorem maskedLayer_eq_iff : (∀ k ≤ n, maskedLayer R A S k = layer R S k) ↔
    ∀ k < n, ∀ b ∈ layer R S k, b ∈ next R (layer R S k) → b ∈ next A (layer R S k) := by
  constructor
  · intro h k hk b hb hnext
    have hmem : b ∈ maskedLayer R A S (k + 1) := by
      rw [h (k + 1) hk]
      exact hnext
    rw [maskedLayer, h k hk.le] at hmem
    exact hmem.2.resolve_left (not_not.2 hb)
  intro h k hk
  induction k with
  | zero => rfl
  | succ k ih =>
    rw [maskedLayer, ih (le_of_succ_le hk)]
    ext b
    constructor
    · exact fun hb => hb.1
    intro hb
    by_cases hmem : b ∈ layer R S k
    · exact ⟨hb, .inr (h k hk b hmem hb)⟩
    · exact ⟨hb, .inl hmem⟩

end

/-! ## Two relations -/

/-- Walks in a relation that is carried along a map of a closed domain. -/
theorem layer_image (hS : S ⊆ D) (closed : ∀ a ∈ D, ∀ b, R a b → b ∈ D)
    (hf : ∀ a ∈ D, ∀ b', R' (f a) b' ↔ ∃ b, f b = b' ∧ R a b) :
    layer R' (f '' S) n = f '' layer R S n ∧ layer R S n ⊆ D := by
  induction n with
  | zero => exact ⟨rfl, hS⟩
  | succ n ih =>
    refine ⟨?_, fun b ⟨a, ha, hab⟩ => closed a (ih.2 ha) b hab⟩
    rw [layer, ih.1]
    ext b'
    constructor
    · rintro ⟨_, ⟨a, ha, rfl⟩, hab⟩
      obtain ⟨b, rfl, hab'⟩ := (hf a (ih.2 ha) b').1 hab
      exact ⟨b, ⟨a, ha, hab'⟩, rfl⟩
    · rintro ⟨b, ⟨a, ha, hab⟩, rfl⟩
      exact ⟨f a, ⟨a, ha, rfl⟩, (hf a (ih.2 ha) (f b)).2 ⟨b, rfl, hab⟩⟩

/-- Walks along a map, of any length. -/
theorem between_image (hS : S ⊆ D) (closed : ∀ a ∈ D, ∀ b, R a b → b ∈ D)
    (hf : ∀ a ∈ D, ∀ b', R' (f a) b' ↔ ∃ b, f b = b' ∧ R a b) :
    between R' (f '' S) m n = f '' between R S m n ∧ between R S m n ⊆ D := by
  refine ⟨Set.ext fun b' => ⟨?_, ?_⟩, fun a ⟨k, _, _, ha⟩ => (layer_image hS closed hf).2 ha⟩
  · rintro ⟨k, hm, hn, hb⟩
    rw [(layer_image hS closed hf).1] at hb
    obtain ⟨b, hb, rfl⟩ := hb
    exact ⟨b, ⟨k, hm, hn, hb⟩, rfl⟩
  · rintro ⟨b, ⟨k, hm, hn, hb⟩, rfl⟩
    refine ⟨k, hm, hn, ?_⟩
    rw [(layer_image hS closed hf).1]
    exact ⟨b, hb, rfl⟩

/-- Elements with no step can be left out of the start. -/
theorem layer_succ_of_stuck (hT : T ⊆ S) (stuck : ∀ a ∈ S, a ∉ T → ∀ b, ¬ R a b) :
    layer R S (n + 1) = layer R T (n + 1) := by
  induction n with
  | zero =>
    refine Set.Subset.antisymm ?_ (next_mono hT)
    rintro b ⟨a, ha, hab⟩
    by_cases haT : a ∈ T
    · exact ⟨a, haT, hab⟩
    · exact absurd hab (stuck a ha haT b)
  | succ n ih => exact congrArg (next R) ih

theorem between_of_stuck (hT : T ⊆ S) (stuck : ∀ a ∈ S, a ∉ T → ∀ b, ¬ R a b) (hm : 1 ≤ m) :
    between R S m n = between R T m n := by
  refine Set.ext fun b => exists_congr fun k => and_congr_right fun hk => ?_
  obtain ⟨k, rfl⟩ := Nat.exists_eq_succ_of_ne_zero (Nat.pos_iff_ne_zero.1 (hm.trans hk))
  rw [Nat.succ_eq_add_one, layer_succ_of_stuck hT stuck]

/-! ## Loops over rounds -/

/-- Up to `n` rounds after the first `k`. A round gets its number, counted from one, and says
whether the loop stops. -/
def rounds {ε σ : Type*} (body : ℕ → σ → Except ε (σ × Bool)) : ℕ → ℕ → σ → Except ε σ
  | 0, _, s => .ok s
  | n + 1, k, s =>
    match body (k + 1) s with
    | .error e => .error e
    | .ok (s', true) => .ok s'
    | .ok (s', false) => rounds body n (k + 1) s'

/-- What every round keeps, and what follows from it when the loop stops or ends. -/
theorem rounds_ok {P : ℕ → σ → Prop}
    {Q : σ → Prop} (h : rounds body n k s = .ok s') (init : P k s)
    (step : ∀ i s s', k ≤ i → i < k + n → P i s → body (i + 1) s = .ok (s', false) → P (i + 1) s')
    (stop : ∀ i s s', k ≤ i → i < k + n → P i s → body (i + 1) s = .ok (s', true) → Q s')
    (last : ∀ s, P (k + n) s → Q s) : Q s' := by
  induction n generalizing k s with
  | zero =>
    cases h
    exact last _ init
  | succ n ih =>
    rw [rounds] at h
    have hk : k < k + (n + 1) := Nat.lt_add_of_pos_right (Nat.succ_pos n)
    have hassoc : k + 1 + n = k + (n + 1) := by omega
    split at h
    · cases h
    · next s₁ hbody =>
      cases h
      exact stop k s _ (le_refl k) hk init hbody
    next s₁ hbody =>
    refine ih h (step k s s₁ (le_refl k) hk init hbody) ?_ ?_ ?_
    · exact fun i t t' hi hlt => step i t t' (Nat.le_of_succ_le hi) (hassoc ▸ hlt)
    · exact fun i t t' hi hlt => stop i t t' (Nat.le_of_succ_le hi) (hassoc ▸ hlt)
    · exact fun t ht => last t (hassoc ▸ ht)

/-- One round of a search: what is new is the next frontier, and the search may stop when there is
nothing new. -/
structure Round (new added result result' frontier' : Set α) (stop : Bool) : Prop where
  result_eq : result' = result ∪ added
  frontier_eq : stop = false → frontier' = new
  new_eq_empty : stop = true → new = ∅

section

variable {ε σ : Type*} {body : ℕ → σ → Except ε (σ × Bool)} {I : ℕ → σ → Prop} {s s' : σ}
  (frontier result : σ → Set α)

/-- The search that leaves out what it has seen. -/
theorem rounds_searched (h : rounds body n 0 s = .ok s') (init : I 0 s) (hfrontier : frontier s = S)
    (hresult : result s = S)
    (round : ∀ k s s' stop, I k s → body (k + 1) s = .ok (s', stop) → I (k + 1) s' ∧
      Round (next R (frontier s) \ result s) (next R (frontier s) \ result s) (result s)
        (result s') (frontier s') stop) : result s' = between R S 0 n := by
  refine rounds_ok (P := fun k s => I k s ∧ Searched R S k (result s) (frontier s))
    (Q := fun s => result s = between R S 0 n) h ⟨init, ?_⟩ ?_ ?_ ?_
  · rw [hfrontier, hresult]
    exact .init
  · rintro k s s' _ _ ⟨hI, hs⟩ hbody
    obtain ⟨hI', hround⟩ := round k s s' false hI hbody
    rw [hround.result_eq, hround.frontier_eq rfl]
    exact ⟨hI', hs.step⟩
  · rintro k s s' _ hlt ⟨hI, hs⟩ hbody
    obtain ⟨-, hround⟩ := round k s s' true hI hbody
    rw [hround.result_eq, hround.new_eq_empty rfl, Set.union_empty]
    exact hs.stop (hround.new_eq_empty rfl) (by omega)
  · rintro s ⟨-, hs⟩
    rw [hs.seen_eq, Nat.zero_add]

/-- The search that collects its frontiers from the round `m` on. -/
theorem rounds_window (empty : ∀ {i k}, L i = ∅ → i ≤ k → L k = ∅)
    (h : rounds body n 0 s = .ok s') (init : I 0 s) (hfrontier : frontier s = L 0)
    (hresult : result s = window L m 0)
    (round : ∀ k s s' stop, I k s → frontier s = L k → body (k + 1) s = .ok (s', stop) →
      I (k + 1) s' ∧ Round (L (k + 1)) {b | m ≤ k + 1 ∧ b ∈ L (k + 1)} (result s) (result s')
        (frontier s') stop) : result s' = window L m n := by
  refine rounds_ok (P := fun k s => I k s ∧ frontier s = L k ∧ result s = window L m k)
    (Q := fun s => result s = window L m n) h ⟨init, hfrontier, hresult⟩ ?_ ?_ ?_
  · rintro k s s' _ _ ⟨hI, hfrontier, hresult⟩ hbody
    obtain ⟨hI', hround⟩ := round k s s' false hI hfrontier hbody
    exact ⟨hI', hround.frontier_eq rfl, by rw [hround.result_eq, hresult, window_succ]⟩
  · rintro k s s' _ hlt ⟨hI, hfrontier, hresult⟩ hbody
    obtain ⟨-, hround⟩ := round k s s' true hI hfrontier hbody
    rw [hround.result_eq, hresult, ← window_succ]
    exact (window_eq_of_empty (fun i hi => empty (hround.new_eq_empty rfl) hi.le) (by omega)).symm
  · rintro s ⟨-, -, hs⟩
    rw [hs, Nat.zero_add]

end

/-- A loop whose rounds cannot fail does not fail. -/
theorem rounds_isOk {body : ℕ → σ → Except ε (σ × Bool)}
    (hbody : ∀ i s, ∃ r, body i s = .ok r) (n k : ℕ) (s : σ) :
    ∃ s', rounds body n k s = .ok s' := by
  induction n generalizing k s with
  | zero => exact ⟨s, rfl⟩
  | succ n ih =>
    obtain ⟨⟨s₁, stop⟩, h⟩ := hbody (k + 1) s
    rw [rounds, h]
    cases stop with
    | true => exact ⟨s₁, rfl⟩
    | false => exact ih (k + 1) s₁

end Walk
