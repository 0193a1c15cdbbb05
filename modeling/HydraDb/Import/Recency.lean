import HydraDb.Import.Resolve
import HydraDb.Lib.Numeral

/-!
# Which record wins a merge

Two records of one id are merged by recency. The time stamps are compared as texts, integers among
them written with a sign and zeros in front. Texts of one width are in the order of the numbers, but
a plus sign comes before a minus sign: stamps before the epoch count as the most recent ones, the
earlier the more. So the newest record wins a merge exactly if neither stamp is negative:
`newest_record_wins_iff`.
-/

namespace HydraDb.Import

open List OrdMap

variable {p q newer older : Properties} {a b : Int} {name : String}

/-! ## The order of the stamps -/

theorem toList_formatInteger : (formatInteger a).toList =
    (if a < 0 then '-' else '+') :: Numeral.padded 10 19 a.natAbs := by
  unfold formatInteger padded Numeral.padded
  split <;> simp [Nat.repr]

/-- The text of the later of two stamps comes second if the earlier is not negative, and first if it
is. -/
theorem formatInteger_lt (h : a < b) (ha : a.natAbs < 10 ^ 19) (hb : b.natAbs < 10 ^ 19) :
    if 0 ≤ a then formatInteger a < formatInteger b else formatInteger b < formatInteger a := by
  simp only [String.lt_iff_toList_lt, toList_formatInteger]
  split
  · next hpos =>
    rw [if_neg (by omega), if_neg (by omega)]
    exact .cons (Numeral.padded_lt (by decide) (by decide) (by decide) (by omega) hb)
  rw [if_pos (by omega : a < 0)]
  split
  · exact .cons (Numeral.padded_lt (by decide) (by decide) (by decide) (by omega) ha)
  · exact .rel (by decide)

/-- The stamps by which two records are compared: when they were updated or, if neither says that,
when they were created. -/
def Stamped (p q : Properties) (a b : Int) : Prop :=
  p.get "updated_at" = some (.integer a) ∧ q.get "updated_at" = some (.integer b) ∨
    p.get "updated_at" = none ∧ q.get "updated_at" = none ∧
      p.get "created_at" = some (.integer a) ∧ q.get "created_at" = some (.integer b)

theorem Stamped.symm (h : Stamped p q a b) : Stamped q p b a :=
  h.imp And.symm fun ⟨hp, hq, ha, hb⟩ => ⟨hq, hp, hb, ha⟩

theorem Stamped.recency_lt (h : Stamped p q a b) (hlt : formatInteger a < formatInteger b) :
    recency p < recency q := by
  unfold recency
  rw [Prod.Lex.toLex_lt_toLex]
  rcases h with ⟨ha, hb⟩ | ⟨hp, hq, ha, hb⟩
  · rw [ha, hb]
    exact .inl hlt
  · rw [hp, hq, ha, hb]
    exact .inr ⟨rfl, hlt⟩

/-! ## The merged properties -/

/-- A gap of the newer record is filled when the loop comes to its name. -/
theorem get_fillGaps : (fillGaps newer older).get name =
    if isGap (newer.get name) = true ∧ isGap (older.get name) = false then older.get name
    else newer.get name := by
  have key := foldl_induction (l := older.entries) (b := newer)
    (f := fun properties entry => if isGap (properties.get entry.1) && !isGap (some entry.2) then
      properties.put entry.1 entry.2 else properties)
    (P := fun done acc => acc.get name = if name ∈ done.map Prod.fst ∧
      isGap (newer.get name) = true ∧ isGap (older.get name) = false then older.get name
      else newer.get name) (by simp) ?_
  · rw [fillGaps, key]
    cases hget : older.get name with
    | none => simp [isGap]
    | some v =>
      have hmem : name ∈ older.entries.map Prod.fst :=
        mem_map.2 ⟨(name, v), mem_entries.2 hget, rfl⟩
      simp [hmem]
  · rintro done ⟨k, v⟩ rest acc hl hacc
    have hget : older.get k = some v := mem_entries.1 (mem_of_next hl)
    by_cases hk : name = k
    · subst hk
      rw [hget] at hacc ⊢
      by_cases hdone : name ∈ done.map Prod.fst <;> cases hn : isGap (newer.get name) <;>
        cases hv : isGap (some v) <;> simp_all
    · have hsame : (if isGap (acc.get k) && !isGap (some v) then acc.put k v else acc).get name =
          acc.get name := by
        split
        · exact get_put_of_ne hk
        · rfl
      simp only [hsame, hacc, map_append, map_singleton, mem_snoc, hk, or_false]

/-- The properties of the newer record are kept, and those of the older one fill its gaps. -/
def Prevails (newer older merged : Properties) : Prop :=
  ∀ name, (isGap (newer.get name) = false → merged.get name = newer.get name) ∧
    (isGap (newer.get name) = true → isGap (older.get name) = false →
      merged.get name = older.get name)

theorem prevails_fillGaps : Prevails newer older (fillGaps newer older) := by
  intro name
  rw [get_fillGaps]
  constructor <;> intros <;> simp [*]

/-- Not both of two records prevail: the stamp shows which. -/
theorem Stamped.not_prevails (h : Stamped p q a b) (hne : a ≠ b) (hp : Prevails p q merged) :
    ¬ Prevails q p merged := by
  intro hq
  have hstamp : ∀ name, p.get name = some (.integer a) → q.get name ≠ some (.integer b) := by
    intro name ha hb
    have hm := (hp name).1 (by rw [ha]; rfl)
    rw [(hq name).1 (by rw [hb]; rfl), ha, hb] at hm
    cases hm
    exact hne rfl
  rcases h with ⟨ha, hb⟩ | ⟨-, -, ha, hb⟩
  · exact hstamp _ ha hb
  · exact hstamp _ ha hb

/-- The properties of two merged records. -/
def mergeProperties (existing candidate : Properties) : Properties :=
  if recency existing < recency candidate then fillGaps candidate existing
  else fillGaps existing candidate

/-- The record with the larger stamp prevails. -/
def NewestWins (p q merged : Properties) (a b : Int) : Prop :=
  (a < b → Prevails q p merged) ∧ (b < a → Prevails p q merged)

theorem Stamped.newestWins_iff (h : Stamped p q a b) (ha : a.natAbs < 10 ^ 19)
    (hb : b.natAbs < 10 ^ 19) :
    NewestWins p q (mergeProperties p q) a b ↔ a = b ∨ 0 ≤ a ∧ 0 ≤ b := by
  have hfirst : formatInteger a < formatInteger b → Prevails q p (mergeProperties p q) := by
    intro hlt
    rw [mergeProperties, if_pos (h.recency_lt hlt)]
    exact prevails_fillGaps
  have hsecond : formatInteger b < formatInteger a → Prevails p q (mergeProperties p q) := by
    intro hlt
    rw [mergeProperties, if_neg (h.symm.recency_lt hlt).not_gt]
    exact prevails_fillGaps
  rcases lt_trichotomy a b with hlt | rfl | hgt
  · have hformat := formatInteger_lt hlt ha hb
    split at hformat
    · exact iff_of_true ⟨fun _ => hfirst hformat, fun hgt => absurd hlt hgt.not_gt⟩ (by omega)
    · exact iff_of_false (fun wins => h.not_prevails hlt.ne (hsecond hformat) (wins.1 hlt))
        (by omega)
  · exact iff_of_true ⟨fun hlt => absurd hlt (lt_irrefl a), fun hlt => absurd hlt (lt_irrefl a)⟩
      (.inl rfl)
  · have hformat := formatInteger_lt hgt hb ha
    split at hformat
    · exact iff_of_true ⟨fun hlt => absurd hgt hlt.not_gt, fun _ => hsecond hformat⟩ (by omega)
    · exact iff_of_false (fun wins => h.not_prevails hgt.ne' (wins.2 hgt) (hfirst hformat))
        (by omega)

/-! ## Records -/

/-- **The newest record wins.** For records whose stamps are 64-bit integers: the record with the
larger stamp prevails in a merge, in whichever order the two come, and labels and sources are
united, exactly if the stamps are equal or neither is negative. -/
theorem newest_record_wins_iff (ha : -2 ^ 63 ≤ a ∧ a < 2 ^ 63) (hb : -2 ^ 63 ≤ b ∧ b < 2 ^ 63) :
    (∀ v w : ResolvedVertex, Stamped v.properties w.properties a b →
      (NewestWins v.properties w.properties (mergeVertex v w).properties a b ∧
        (∀ label, (mergeVertex v w).labels.contains label = true ↔
          v.labels.contains label = true ∨ w.labels.contains label = true) ∧
        (∀ s, s ∈ (mergeVertex v w).sources ↔ s ∈ v.sources ∨ s ∈ w.sources) ↔
      a = b ∨ 0 ≤ a ∧ 0 ≤ b)) ∧
    ∀ r t : ResolvedRelationship, Stamped r.properties t.properties a b →
      (NewestWins r.properties t.properties (mergeRelationship r t).properties a b ∧
        (∀ s, s ∈ (mergeRelationship r t).sources ↔ s ∈ r.sources ∨ s ∈ t.sources) ↔
      a = b ∨ 0 ≤ a ∧ 0 ≤ b) := by
  have key : ∀ {p q : Properties}, Stamped p q a b →
      (NewestWins p q (mergeProperties p q) a b ↔ a = b ∨ 0 ≤ a ∧ 0 ≤ b) :=
    fun h => h.newestWins_iff (by omega) (by omega)
  unfold mergeProperties at key
  constructor
  · intro v w h
    rw [← key h]
    unfold mergeVertex
    simp only [contains_addAll, mem_keys_iff_contains, mem_sortDedup, mem_append]
    split <;> exact and_iff_left ⟨by tauto, by tauto⟩
  · intro r t h
    rw [← key h]
    unfold mergeRelationship
    simp only [mem_sortDedup, mem_append]
    split <;> exact and_iff_left (by tauto)

/-- A vertex with nothing but a stamp. -/
def stampedVertex (stamp : Int) : ResolvedVertex :=
  ⟨1, ∅, (∅ : Properties).put "updated_at" (.integer stamp), []⟩

/-- A record of a graph: its name is null in the newer one. -/
def recordOf (graph : String) (stamp : Int) (name : PropertyValue) : ResolvedVertex :=
  ⟨1, (∅ : OrdMap String Unit).put graph (), (stampedVertex stamp).properties.put "name" name,
    [⟨graph, 0⟩]⟩

theorem newest_record_wins_iff_recordOf :
    let older := recordOf "Old" 1 (.string "a")
    let newer := recordOf "New" 2 .null
    NewestWins older.properties newer.properties (mergeVertex older newer).properties 1 2 ∧
      (mergeVertex older newer).properties.get "name" = some (.string "a") ∧
      (mergeVertex older newer).labels.contains "Old" = true ∧
      (⟨"Old", 0⟩ : SourceObject) ∈ (mergeVertex older newer).sources := by
  intro older newer
  obtain ⟨hwins, hlabels, hsources⟩ := ((newest_record_wins_iff (by decide) (by decide)).1 older
    newer (.inl ⟨rfl, rfl⟩)).2 (by decide : (1 : Int) = 2 ∨ 0 ≤ (1 : Int) ∧ 0 ≤ (2 : Int))
  exact ⟨hwins, (hwins.1 (by decide) "name").2 rfl rfl, (hlabels "Old").2 (.inl rfl),
    (hsources _).2 (.inl (mem_singleton_self _))⟩

/-- A record from before the epoch wins over a later one. -/
theorem not_newest_stampedVertex :
    (mergeVertex (stampedVertex (-5)) (stampedVertex 3)).properties.get "updated_at" =
        some (.integer (-5)) ∧
      ¬ NewestWins (stampedVertex (-5)).properties (stampedVertex 3).properties
        (mergeVertex (stampedVertex (-5)) (stampedVertex 3)).properties (-5) 3 := by
  have hstamp : (mergeVertex (stampedVertex (-5)) (stampedVertex 3)).properties.get "updated_at" =
      some (.integer (-5)) := rfl
  refine ⟨hstamp, fun wins => ?_⟩
  have hlater := (wins.1 (by decide) "updated_at").1 rfl
  rw [hstamp] at hlater
  cases hlater

end HydraDb.Import
