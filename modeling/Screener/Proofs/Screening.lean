import Mathlib.Data.List.Basic
import Screener.Screening
import Screener.Proofs.Binary64.Order

/-!
Screening as a map from filters to securities. Filters that ask for more select a part of what
those that ask for less select, in the same order; filters that ask for what two others ask select
what both do. A figure that is not a number satisfies no limit, and what is no limit and no signal
has no influence.
-/

namespace Screener

-----------------------------------------------------------------------------------------
-- The smaller and the larger of two values
-----------------------------------------------------------------------------------------

namespace Binary64

/-- Of two values the one that is at most the other. -/
def smaller (a b : Binary64) : Binary64 := if a ≤ b then a else b

/-- Of two values the one that the other is at most. -/
def larger (a b : Binary64) : Binary64 := if a ≤ b then b else a

variable {a b : Binary64}

/-- A value is at most the smaller of two numbers if it is at most both. -/
theorem le_smaller_iff (left : a.isNaN = false) (right : b.isNaN = false) {v : Binary64}
    : v ≤ smaller a b ↔ v ≤ a ∧ v ≤ b := by
  unfold smaller
  split
  next ordered => exact ⟨fun le => ⟨le, le_trans le ordered⟩, And.left⟩
  next other =>
    have back := le_of_not_le left right other
    exact ⟨fun le => ⟨le_trans le back, le⟩, And.right⟩

/-- The larger of two numbers is at most a value if both are. -/
theorem larger_le_iff (left : a.isNaN = false) (right : b.isNaN = false) {v : Binary64}
    : larger a b ≤ v ↔ a ≤ v ∧ b ≤ v := by
  unfold larger
  split
  next ordered => exact ⟨fun le => ⟨le_trans ordered le, le⟩, And.right⟩
  next other =>
    have back := le_of_not_le left right other
    exact ⟨fun le => ⟨le, le_trans back le⟩, And.left⟩

end Binary64

open Binary64 (larger smaller)

-----------------------------------------------------------------------------------------
-- Filters
-----------------------------------------------------------------------------------------

namespace Filters

variable {f g : Filters} {s : Security}

/-- Every limit and the signal that the filters set hold of a security. A figure may be just at
its limit.
-/
structure Met (f : Filters) (s : Security) : Prop where
  peMax : ∀ limit ∈ f.peMax, s.pe ≤ limit
  mcapMaxYi : ∀ limit ∈ f.mcapMaxYi, s.mcapYi ≤ limit
  turnMinPct : ∀ limit ∈ f.turnMinPct, limit ≤ s.turnoverPct
  tech : ∀ trigger ∈ f.tech, s.tech.shows trigger = true

theorem passes_iff : f.passes s = true ↔ f.Met s := by
  simp only [passes, Bool.and_eq_true, Option.all_eq_true, decide_eq_true_eq, and_assoc]
  exact ⟨fun ⟨peMax, mcapMaxYi, turnMinPct, tech⟩ => ⟨peMax, mcapMaxYi, turnMinPct, tech⟩,
    fun ⟨peMax, mcapMaxYi, turnMinPct, tech⟩ => ⟨peMax, mcapMaxYi, turnMinPct, tech⟩⟩

/-- The limits that the filters set are numbers. -/
structure Numeric (f : Filters) : Prop where
  peMax : ∀ limit ∈ f.peMax, limit.isNaN = false
  mcapMaxYi : ∀ limit ∈ f.mcapMaxYi, limit.isNaN = false
  turnMinPct : ∀ limit ∈ f.turnMinPct, limit.isNaN = false

/-- The first filters ask for all that the second ones ask for: they set every limit that these set,
and none of them wider, and the signal if these set one.
-/
structure Narrows (f g : Filters) : Prop where
  peMax : ∀ limit ∈ g.peMax, ∃ own ∈ f.peMax, own ≤ limit
  mcapMaxYi : ∀ limit ∈ g.mcapMaxYi, ∃ own ∈ f.mcapMaxYi, own ≤ limit
  turnMinPct : ∀ limit ∈ g.turnMinPct, ∃ own ∈ f.turnMinPct, limit ≤ own
  tech : g.tech = .none ∨ g.tech = f.tech

/-- The filters do not ask for two signals. -/
def Compatible (f g : Filters) : Prop := f.tech = g.tech ∨ f.tech = .none ∨ g.tech = .none

/-- The filters that ask for what two others ask for. -/
def meet (f g : Filters) : Filters where
  peMax := f.peMax.merge smaller g.peMax
  mcapMaxYi := f.mcapMaxYi.merge smaller g.mcapMaxYi
  turnMinPct := f.turnMinPct.merge larger g.turnMinPct
  tech := f.tech.or g.tech
  note := f.note

/-- The figures of a security that the filters set a limit to are numbers. -/
structure Knows (f : Filters) (s : Security) : Prop where
  pe : f.peMax ≠ .none → s.pe.isNaN = false
  mcapYi : f.mcapMaxYi ≠ .none → s.mcapYi.isNaN = false
  turnoverPct : f.turnMinPct ≠ .none → s.turnoverPct.isNaN = false

/-- What passes filters passes those that ask for less, as limits are transitive. -/
theorem Narrows.passes (narrows : f.Narrows g) (passed : f.passes s = true)
    : g.passes s = true := by
  rw [passes_iff] at passed ⊢
  obtain ⟨pe, mcapYi, turnoverPct, tech⟩ := passed
  refine ⟨fun limit set => ?_, fun limit set => ?_, fun limit set => ?_, fun trigger set => ?_⟩
  · obtain ⟨own, mine, within⟩ := narrows.peMax limit set
    exact Binary64.le_trans (pe own mine) within
  · obtain ⟨own, mine, within⟩ := narrows.mcapMaxYi limit set
    exact Binary64.le_trans (mcapYi own mine) within
  · obtain ⟨own, mine, within⟩ := narrows.turnMinPct limit set
    exact Binary64.le_trans within (turnoverPct own mine)
  · rcases narrows.tech with none | same
    · rw [none] at set
      contradiction
    · exact tech trigger (same ▸ set)

/-- A test of two values merged is a test of each, where it is one of two present values. -/
theorem all_merge {α : Type} {join : α → α → α} {test : α → Bool} {a b : Option α}
    (both : ∀ x ∈ a, ∀ y ∈ b, test (join x y) = (test x && test y))
    : (a.merge join b).all test = (a.all test && b.all test) := by
  cases a with
  | none => cases b <;> simp [Option.merge]
  | some x =>
      cases b with
      | none => simp [Option.merge]
      | some y => simpa [Option.merge] using both x rfl y rfl

theorem all_or {α : Type} {test : α → Bool} {a b : Option α}
    (single : a = b ∨ a = .none ∨ b = .none)
    : (a.or b).all test = (a.all test && b.all test) := by
  rcases single with rfl | rfl | rfl
  · cases a <;> simp
  · simp
  · simp

/-- A security passes filters joined just if it passes both. -/
theorem passes_meet (left : f.Numeric) (right : g.Numeric) (compatible : f.Compatible g)
    (s : Security)
    : (f.meet g).passes s = (f.passes s && g.passes s) := by
  have ceiling {a b : Option Binary64} (v : Binary64) (ha : ∀ limit ∈ a, limit.isNaN = false)
      (hb : ∀ limit ∈ b, limit.isNaN = false)
      : (a.merge smaller b).all (fun limit => v ≤ limit)
        = (a.all (fun limit => v ≤ limit) && b.all (fun limit => v ≤ limit)) := by
    refine all_merge fun x hx y hy => ?_
    simp [Binary64.le_smaller_iff (ha x hx) (hb y hy)]
  have floor : (f.turnMinPct.merge larger g.turnMinPct).all (fun limit => limit ≤ s.turnoverPct)
      = (f.turnMinPct.all (fun limit => limit ≤ s.turnoverPct)
          && g.turnMinPct.all (fun limit => limit ≤ s.turnoverPct)) := by
    refine all_merge fun x hx y hy => ?_
    simp [Binary64.larger_le_iff (left.turnMinPct x hx) (right.turnMinPct y hy)]
  unfold passes meet
  dsimp only
  rw [ceiling s.pe left.peMax right.peMax, ceiling s.mcapYi left.mcapMaxYi right.mcapMaxYi,
    floor, all_or compatible]
  grind

/-- What passes filters is known where they set a limit. -/
theorem knows_of_passes (passed : f.passes s = true) : f.Knows s := by
  rw [passes_iff] at passed
  obtain ⟨pe, mcapYi, turnoverPct, _⟩ := passed
  refine ⟨fun set => ?_, fun set => ?_, fun set => ?_⟩
  · obtain ⟨limit, set⟩ := Option.ne_none_iff_exists'.1 set
    exact (Binary64.le_iff.1 (pe limit set)).1
  · obtain ⟨limit, set⟩ := Option.ne_none_iff_exists'.1 set
    exact (Binary64.le_iff.1 (mcapYi limit set)).1
  · obtain ⟨limit, set⟩ := Option.ne_none_iff_exists'.1 set
    exact (Binary64.le_iff.1 (turnoverPct limit set)).2.1

/-- Filters that ask for nothing are passed by all. -/
theorem passes_of_isEmpty (empty : f.isEmpty = true) (s : Security) : f.passes s = true := by
  simp only [isEmpty, Bool.and_eq_true, Option.isNone_iff_eq_none] at empty
  simp [passes, empty]

end Filters

-----------------------------------------------------------------------------------------
-- Screening
-----------------------------------------------------------------------------------------

/-- How screening depends on a strategy. What asks for more selects a part of the securities in the
same order; what asks for all that two strategies ask for selects just what both select; what is
selected is known wherever there is a limit; filters that ask for nothing select all; nothing
but limits and the signal counts; and those are selected, in their order, of which all of these
hold.
-/
theorem screen_law (f g : Strategy) (securities : List Security)
    : (f.filters.Narrows g.filters →
        (f.screen securities).Sublist (g.screen securities))
      ∧ (f.filters.Numeric → g.filters.Numeric → f.filters.Compatible g.filters →
          ∀ both : Strategy, both.filters = f.filters.meet g.filters →
            both.screen securities = securities.filter fun s => f.selects s && g.selects s)
      ∧ (∀ s ∈ f.screen securities, f.filters.Knows s)
      ∧ (f.filters.isEmpty = true → f.screen securities = securities)
      ∧ ({ f.filters with note := g.filters.note } = g.filters →
          f.screen securities = g.screen securities)
      ∧ f.screen securities = securities.filter f.selects
      ∧ ∀ s, f.selects s = true ↔ f.filters.Met s := by
  refine ⟨fun narrows => ?_, fun left right compatible both same => ?_, fun s member => ?_,
    fun empty => ?_, fun same => ?_, rfl, fun s => Filters.passes_iff⟩
  · exact List.monotone_filter_right securities fun s passed => narrows.passes passed
  · refine List.filter_congr fun s _ => ?_
    rw [Strategy.selects, same]
    exact Filters.passes_meet left right compatible s
  · exact Filters.knows_of_passes (List.mem_filter.1 member).2
  · exact List.filter_eq_self.2 fun s _ => Filters.passes_of_isEmpty empty s
  · refine List.filter_congr fun s _ => ?_
    rw [Strategy.selects, Strategy.selects, ← same]
    rfl

namespace LossMaker

def now : Timestamp := ⟨⟨2025, 10, 21, by decide⟩, 52844, 31000, by decide, by decide⟩

/-- A price below 25 earnings on a rebound. -/
def cheap : Strategy :=
  { Strategy.draft now with filters := ⟨some 25, none, none, some .rebound, "低位"⟩ }

/-- A price below 30 earnings with a turnover of one per cent. -/
def active : Strategy := { Strategy.draft now with filters := ⟨some 30, none, some 1, none, ""⟩ }

/-- A price below 30 earnings. -/
def moderate : Strategy := { Strategy.draft now with filters := ⟨some 30, none, none, none, ""⟩ }

def insurer : Security :=
  ⟨"601318", "中国平安", "保险", 7400, 8.6, 1.4, 41.22, 0.32, ⟨false, false, true⟩,
    ⟨"深圳", ["金融"]⟩⟩

/-- The insurer twice, and between that a security without earnings under the same code. -/
def securities : List Security := [insurer, { insurer with pe := .nan }, insurer]

/-- What is cheap is moderate, and what is cheap and active is what asks for both. -/
theorem screen_law_lossMaker
    : cheap.filters.Narrows moderate.filters
      ∧ (cheap.screen securities).Sublist (moderate.screen securities)
      ∧ (cheap.filters.Numeric ∧ active.filters.Numeric
        ∧ cheap.filters.Compatible active.filters)
      ∧ Strategy.screen { cheap with filters := cheap.filters.meet active.filters } securities
          = securities.filter fun s => cheap.selects s && active.selects s := by
  have limits : (25 : Binary64) ≤ 30 ∧ (25 : Binary64).isNaN = false
      ∧ (30 : Binary64).isNaN = false ∧ (1 : Binary64).isNaN = false := by
    decide +kernel
  have unset {P : Binary64 → Prop} : ∀ limit ∈ (none : Option Binary64), P limit :=
    fun limit set => absurd set (Option.not_mem_none limit)
  have narrows : cheap.filters.Narrows moderate.filters := by
    refine ⟨fun limit set => ⟨25, rfl, ?_⟩, unset, unset, .inl rfl⟩
    rw [← Option.some.inj set]
    exact limits.1
  have cheapNumeric : cheap.filters.Numeric := by
    refine ⟨fun limit set => ?_, unset, unset⟩
    rw [← Option.some.inj set]
    exact limits.2.1
  have activeNumeric : active.filters.Numeric := by
    refine ⟨fun limit set => ?_, unset, fun limit set => ?_⟩
    · rw [← Option.some.inj set]
      exact limits.2.2.1
    · rw [← Option.some.inj set]
      exact limits.2.2.2
  have compatible : cheap.filters.Compatible active.filters := .inr (.inr rfl)
  exact ⟨narrows, (screen_law cheap moderate securities).1 narrows,
    ⟨cheapNumeric, activeNumeric, compatible⟩,
    (screen_law cheap active securities).2.1 cheapNumeric activeNumeric compatible _ rfl⟩

end LossMaker

end Screener
