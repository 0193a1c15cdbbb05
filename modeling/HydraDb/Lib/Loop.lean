import Mathlib.Data.List.Induction

/-!
# Loops that can fail

A loop over a list with an accumulator is `List.foldl`, one whose body can fail is
`List.foldlM` in `Except`. This file has the rule by which such a loop is read: what holds before
it and is kept by every round that succeeds holds after it. The rule comes in two forms, one that
knows the elements already visited and one that does not need them.
-/

universe u v

namespace Except

/-- A sequence of two computations succeeds when both do. -/
theorem bind_eq_ok_iff {f : α → Except ε β} : x >>= f = .ok b ↔ ∃ a, x = .ok a ∧ f a = .ok b := by
  cases x with
  | error =>
    constructor
    · intro h; cases h
    · rintro ⟨a, h, -⟩; cases h
  | ok a =>
    constructor
    · intro h; exact ⟨a, rfl, h⟩
    · rintro ⟨a', ⟨⟩, h⟩; exact h

/-- A computation that succeeds on a condition, with a value known beforehand, goes on with it. -/
theorem bind_eq_ok_iff_of {f : α → Except ε β} (h : ∀ a, x = .ok a ↔ p ∧ a = c) :
    x >>= f = .ok b ↔ p ∧ f c = .ok b := by
  rw [bind_eq_ok_iff]
  constructor
  · rintro ⟨a, hx, hf⟩
    obtain ⟨hp, rfl⟩ := (h a).1 hx
    exact ⟨hp, hf⟩
  · rintro ⟨hp, hf⟩
    exact ⟨c, (h c).2 ⟨hp, rfl⟩, hf⟩

theorem ok_eq_ok : (.ok a : Except ε α) = .ok b ↔ b = a :=
  ⟨fun h => by cases h; rfl, fun h => by rw [h]⟩

/-- A computation goes on with the value it has. -/
theorem ok_bind (a : α) (f : α → Except ε β) : (.ok a : Except ε α) >>= f = f a :=
  rfl

/-- A guard that raises an error was passed. -/
theorem guard_eq_ok_iff [Decidable p] :
    (if p then .error e else .ok () : Except ε Unit) = .ok u ↔ ¬ p := by
  by_cases h : p <;> simp

end Except

/-- What a sequence of two computations that succeeds has done. -/
theorem bind_ok {f : α → Except ε β} (h : x >>= f = .ok b) : ∃ a, x = .ok a ∧ f a = .ok b :=
  Except.bind_eq_ok_iff.1 h

theorem bind_isOk {f : α → Except ε β} (hx : ∃ a, x = .ok a)
    (hf : ∀ a, x = .ok a → ∃ b, f a = .ok b) : ∃ b, x >>= f = .ok b := by
  obtain ⟨a, rfl⟩ := hx
  exact hf a rfl

/-- A computation that goes on after a check has passed it. -/
theorem seq_ok {y : Except ε β} (h : (do let _ ← x; y) = .ok b) : y = .ok b := by
  obtain ⟨_, -, h⟩ := bind_ok h
  exact h

theorem seq_ok₂ {z : Except ε γ} (h : (do let _ ← x; let _ ← y; z) = .ok c) : z = .ok c :=
  seq_ok (seq_ok h)

theorem seq_ok₃
    {z : Except ε δ} (h : (do let _ ← w; let _ ← x; let _ ← y; z) = .ok d) : z = .ok d :=
  seq_ok (seq_ok₂ h)

section

variable [Decidable p] {x y z : α} (h : (if p then x else y) = z)

include h

/-- A computation that does not leave at a guard has passed it. -/
theorem else_of_ne (hx : x ≠ z) : ¬ p ∧ y = z := by
  split at h
  · exact absurd h hx
  · next hp => exact ⟨hp, h⟩

theorem rest_of_ne (hx : x ≠ z) : y = z :=
  (else_of_ne h hx).2

theorem then_of_ne (hy : y ≠ z) : p ∧ x = z := by
  split at h
  · next hp => exact ⟨hp, h⟩
  · exact absurd h hy

end

namespace List

variable {l : List α} {f : β → α → Except ε β} {P : List α → β → Prop}

/-! ## The elements visited -/

theorem mem_snoc : x ∈ l ++ [a] ↔ x ∈ l ∨ x = a := by
  rw [mem_append, mem_singleton]

theorem exists_mem_snoc {p : α → Prop} : (∃ x ∈ l ++ [a], p x) ↔ (∃ x ∈ l, p x) ∨ p a := by
  simp

theorem forall_mem_snoc {p : α → Prop} : (∀ x ∈ l ++ [a], p x) ↔ (∀ x ∈ l, p x) ∧ p a := by
  simp [or_imp, forall_and]

theorem not_mem_map_snoc : k ∉ (l ++ [a]).map key ↔ k ∉ l.map key ∧ k ≠ key a := by
  rw [map_append, map_singleton, mem_snoc, not_or]

/-- The element that is visited is one of the list. -/
theorem mem_of_next (hl : done ++ a :: rest = l) : a ∈ l :=
  hl ▸ mem_append_right done mem_cons_self

/-- In a loop over elements with distinct keys the key of the next element is new. -/
theorem key_not_mem_done (distinct : (l.map key).Nodup)
    (hl : done ++ a :: rest = l) : key a ∉ done.map key := by
  rw [← hl, map_append, nodup_append] at distinct
  exact fun hmem => distinct.2.2 _ hmem _ mem_cons_self rfl

theorem not_mem_done (distinct : l.Nodup) (hl : done ++ a :: rest = l) : a ∉ done := by
  rw [← hl, nodup_append] at distinct
  exact fun hmem => distinct.2.2 a hmem a mem_cons_self rfl

/-! ## Loops -/

/-- Values collected under a condition. -/
theorem filterMap_ite (p : α → Prop) [DecidablePred p] (f : α → β) (l : List α) :
    l.filterMap (fun a => if p a then some (f a) else none) = (l.filter p).map f := by
  induction l with
  | nil => rfl
  | cons a l ih => by_cases h : p a <;> simp [h, ih]

/-- The invariant rule for a loop that can fail: `P done b` relates the elements visited to the
accumulator. -/
theorem foldlM_ok_induction (h : l.foldlM f b = .ok b')
    (init : P [] b) (step : ∀ done a rest c c', done ++ a :: rest = l → P done c → f c a = .ok c' →
      P (done ++ [a]) c') : P l b' := by
  suffices aux : ∀ (rest done : List α) c, done ++ rest = l → P done c →
      rest.foldlM f c = .ok b' → P l b' from aux l [] b rfl init h
  intro rest
  induction rest with
  | nil =>
    rintro done c hl hP hf
    rw [append_nil] at hl
    cases hf
    exact hl ▸ hP
  | cons a rest ih =>
    intro done c hl hP hf
    rw [foldlM_cons] at hf
    obtain ⟨c', hc', hrest⟩ := Except.bind_eq_ok_iff.1 hf
    exact ih (done ++ [a]) c' (by simpa using hl) (step done a rest c c' hl hP hc') hrest

/-- The invariant rule for a loop that can fail, without the elements visited. -/
theorem foldlM_ok_invariant {P : β → Prop} (h : l.foldlM f b = .ok b') (init : P b)
    (step : ∀ a ∈ l, ∀ c c', P c → f c a = .ok c' → P c') : P b' :=
  foldlM_ok_induction h init fun _ a _ c c' hl hP hc =>
    step a (mem_of_next hl) c c' hP hc

/-- The exact rule for a loop that can fail: it gets through the elements visited when `P` holds of
them, and the accumulator is then what `g` makes of them. -/
theorem foldlM_eq_ok_iff {P : List α → Prop} {g : List α → β} (init : P [])
    (step : ∀ done a, P done → ∀ c, f (g done) a = .ok c ↔ P (done ++ [a]) ∧ c = g (done ++ [a]))
    (before : ∀ done a, P (done ++ [a]) → P done) : l.foldlM f (g []) = .ok b ↔ P l ∧ b = g l := by
  induction l using reverseRecOn generalizing b with
  | nil => exact Except.ok_eq_ok.trans (and_iff_right init).symm
  | append_singleton l a ih =>
    rw [foldlM_append, Except.bind_eq_ok_iff_of fun _ => ih, foldlM_cons]
    constructor
    · rintro ⟨hl, h⟩
      obtain ⟨_, hc, ⟨⟩⟩ := Except.bind_eq_ok_iff.1 h
      exact (step l a hl _).1 hc
    · rintro ⟨h, rfl⟩
      have hl := before l a h
      exact ⟨hl, Except.bind_eq_ok_iff.2 ⟨_, (step l a hl _).2 ⟨h, rfl⟩, rfl⟩⟩

/-- A loop none of whose steps fails. -/
theorem foldlM_eq_ok (h : ∀ a ∈ l, ∀ b, f b a = .ok (g b a)) (b : β) :
    l.foldlM f b = .ok (l.foldl g b) := by
  induction l generalizing b with
  | nil => rfl
  | cons a l ih =>
    rw [foldlM_cons, h a mem_cons_self b, foldl_cons]
    exact ih (fun x hx => h x (mem_cons_of_mem _ hx)) _

/-- A loop whose steps can all be taken succeeds. -/
theorem foldlM_isOk (h : ∀ a ∈ l, ∀ b, ∃ b', f b a = .ok b') (b : β) :
    ∃ b', l.foldlM f b = .ok b' := by
  induction l generalizing b with
  | nil => exact ⟨b, rfl⟩
  | cons a l ih =>
    obtain ⟨c, hc⟩ := h a mem_cons_self b
    obtain ⟨b', hb'⟩ := ih (fun x hx => h x (mem_cons_of_mem _ hx)) c
    exact ⟨b', Except.bind_eq_ok_iff.2 ⟨c, hc, hb'⟩⟩

/-- A loop that adds to a collection what each element gives ends with what all of them give. -/
theorem foldlM_ok_collects {R : β → γ → Prop} {Q : α → γ → Prop} (h : l.foldlM f b = .ok b')
    (step : ∀ a ∈ l, ∀ c c', f c a = .ok c' → ∀ x, R c' x ↔ Q a x ∨ R c x) (x : γ) :
    R b' x ↔ (∃ a ∈ l, Q a x) ∨ R b x := by
  refine foldlM_ok_induction (P := fun done c => R c x ↔ (∃ a ∈ done, Q a x) ∨ R b x) h
    (by simp) fun done a rest c c' hl ih hc => ?_
  rw [step a (mem_of_next hl) c c' hc x, ih]
  rw [exists_mem_snoc, ← or_assoc, or_comm (a := Q a x)]

/-- A loop that refuses an element whose key it has seen is over a list of distinct keys. -/
theorem nodup_of_foldlM_ok (key : α → κ) (Seen : β → κ → Prop) (h : l.foldlM f b = .ok b')
    (step : ∀ c a c', f c a = .ok c' →
      ¬ Seen c (key a) ∧ Seen c' (key a) ∧ ∀ k, Seen c k → Seen c' k) : (l.map key).Nodup := by
  refine (foldlM_ok_induction (P := fun done c => (done.map key).Nodup ∧
    ∀ k ∈ done.map key, Seen c k) h ⟨nodup_nil, nofun⟩ ?_).1
  rintro done a rest c c' - ⟨hnodup, hseen⟩ hc
  obtain ⟨hnew, hadded, hkept⟩ := step c a c' hc
  rw [map_append, map_singleton]
  refine ⟨?_, fun k hk => ?_⟩
  · rw [nodup_append]
    refine ⟨hnodup, pairwise_singleton _ _, ?_⟩
    rintro x hx y hy rfl
    rw [mem_singleton] at hy
    exact hnew (hy ▸ hseen x hx)
  · rcases mem_snoc.1 hk with hk | rfl
    · exact hkept k (hseen k hk)
    · exact hadded

variable {f : β → α → β}

/-- The invariant rule for a loop, with the elements visited. -/
theorem foldl_induction (init : P [] b)
    (step : ∀ done a rest c, done ++ a :: rest = l → P done c → P (done ++ [a]) (f c a)) :
    P l (l.foldl f b) := by
  suffices aux : ∀ (rest done : List α) c, done ++ rest = l → P done c →
      P l (rest.foldl f c) from aux l [] b rfl init
  intro rest
  induction rest with
  | nil =>
    intro done c hl hP
    rw [append_nil] at hl
    exact hl ▸ hP
  | cons a rest ih =>
    intro done c hl hP
    exact ih (done ++ [a]) (f c a) (by simpa using hl) (step done a rest c hl hP)

/-- The invariant rule for a loop. -/
theorem foldl_invariant {P : β → Prop} (init : P b)
    (step : ∀ a ∈ l, ∀ c, P c → P (f c a)) : P (l.foldl f b) :=
  foldl_induction init fun _ a _ c hl hP =>
    step a (mem_of_next hl) c hP

/-- In a list in order, the last element with a property is the one that no later one has. -/
theorem find?_reverse_eq_some (sorted : l.Pairwise r) (hmem : x ∈ l) (hx : p x = true)
    (last : ∀ y ∈ l, r x y → p y = false) : l.reverse.find? p = some x := by
  obtain ⟨before, after, rfl⟩ := append_of_mem hmem
  have hafter : after.reverse.find? p = none := by
    rw [find?_eq_none]
    intro y hy
    rw [mem_reverse] at hy
    have hr : r x y := (pairwise_cons.1 (pairwise_append.1 sorted).2.1).1 y hy
    rw [last y (mem_append_right _ (mem_cons_of_mem _ hy)) hr]
    exact Bool.false_ne_true
  rw [reverse_append, reverse_cons, append_assoc, find?_append, hafter]
  simp [hx]

/-- A walk that stops at the first element without a property, over a list on which the elements
with the property come first, meets all of them. -/
theorem mem_takeWhile_iff (h : l.Pairwise fun a b => p b → p a) :
    x ∈ l.takeWhile p ↔ x ∈ l ∧ p x = true := by
  induction l with
  | nil => simp
  | cons a l ih =>
    obtain ⟨ha, hl⟩ := pairwise_cons.1 h
    by_cases hp : p a = true
    · rw [takeWhile_cons_of_pos hp, mem_cons, mem_cons, ih hl]
      constructor
      · rintro (rfl | ⟨hx, hpx⟩)
        · exact ⟨.inl rfl, hp⟩
        · exact ⟨.inr hx, hpx⟩
      · rintro ⟨rfl | hx, hpx⟩
        · exact .inl rfl
        · exact .inr ⟨hx, hpx⟩
    · rw [takeWhile_cons_of_neg hp, mem_cons]
      refine iff_of_false not_mem_nil ?_
      rintro ⟨rfl | hx, hpx⟩
      · exact hp hpx
      · exact hp (ha x hx hpx)

/-- A computation made on every element succeeded on each of them, in order. -/
theorem mapM_ok {f : α → Except ε β} (h : l.mapM f = .ok l') :
    Forall₂ (fun a b => f a = .ok b) l l' := by
  induction l generalizing l' with
  | nil => cases h; exact .nil
  | cons a l ih =>
    rw [mapM_cons] at h
    obtain ⟨b, hb, h⟩ := Except.bind_eq_ok_iff.1 h
    obtain ⟨bs, hbs, h⟩ := Except.bind_eq_ok_iff.1 h
    cases h
    exact .cons hb (ih hbs)

/-- A computation made on every element succeeds when it does on each of them. -/
theorem mapM_eq_ok_iff {f : α → Except ε β} {p : α → Prop}
    (h : ∀ a ∈ l, ∀ b, f a = .ok b ↔ p a ∧ b = g a) :
    l.mapM f = .ok l' ↔ (∀ a ∈ l, p a) ∧ l' = l.map g := by
  induction l generalizing l' with
  | nil => exact Except.ok_eq_ok.trans (and_iff_right nofun).symm
  | cons a l ih =>
    have hhead := h a mem_cons_self
    have htail bs : l.mapM f = .ok bs ↔ (∀ a ∈ l, p a) ∧ bs = l.map g :=
      ih fun x hx => h x (mem_cons_of_mem _ hx)
    rw [mapM_cons, Except.bind_eq_ok_iff, forall_mem_cons, map_cons]
    constructor
    · rintro ⟨b, hb, hrest⟩
      obtain ⟨bs, hbs, ⟨⟩⟩ := Except.bind_eq_ok_iff.1 hrest
      obtain ⟨ha, rfl⟩ := (hhead b).1 hb
      obtain ⟨hl, rfl⟩ := (htail bs).1 hbs
      exact ⟨⟨ha, hl⟩, rfl⟩
    · rintro ⟨⟨ha, hl⟩, rfl⟩
      exact ⟨g a, (hhead _).2 ⟨ha, rfl⟩, Except.bind_eq_ok_iff.2 ⟨_, (htail _).2 ⟨hl, rfl⟩, rfl⟩⟩

/-- A computation that succeeds on every element. -/
theorem mapM_eq_ok {f : α → Except ε β} (h : ∀ a ∈ l, f a = .ok (g a)) :
    l.mapM f = .ok (l.map g) := by
  induction l with
  | nil => rfl
  | cons a l ih =>
    rw [mapM_cons, h a mem_cons_self, ih fun x hx => h x (mem_cons_of_mem _ hx)]
    rfl

/-- A loop that did not give up did not give up at any element. -/
theorem isSome_of_foldlM_isSome {f : β → α → Option β} (h : (l.foldlM f b).isSome = true) :
    ∀ a ∈ l, ∃ c, (f c a).isSome = true := by
  induction l generalizing b with
  | nil => intro a ha; cases ha
  | cons a l ih =>
    rw [foldlM_cons] at h
    cases hc : f b a with
    | none => rw [hc] at h; cases h
    | some =>
      rw [hc] at h
      intro a' ha'
      rcases mem_cons.1 ha' with rfl | ha'
      · exact ⟨b, by rw [hc]; rfl⟩
      · exact ih h a' ha'

/-- A check made on every element succeeded on each of them. -/
theorem forM_ok {f : α → Except ε PUnit.{u + 1}} (h : l.forM f = .ok x) :
    ∀ a ∈ l, f a = .ok ⟨⟩ := by
  induction l with
  | nil => intro a ha; cases ha
  | cons b l ih =>
    obtain ⟨⟨⟩, hb, hl⟩ := Except.bind_eq_ok_iff.1 h
    intro a ha
    rcases mem_cons.1 ha with rfl | ha
    · exact hb
    · exact ih hl a ha

end List
