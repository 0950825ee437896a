import Screener.Market.Invented
import Screener.Proofs.Draws
import Screener.Proofs.Market.ReadBack

/-!
Invented snapshots are snapshots that a document can hold. A figure grows with its draw, so its
values at the ends of the range bound it; each figure of each seed is finite.
-/

namespace Screener.Market

open Binary64

-----------------------------------------------------------------------------------------
-- A figure grows with its draw
-----------------------------------------------------------------------------------------

namespace Spread

/-- The figure grows with its draw, and is finite at both ends of the range. -/
def isBounded (spread : Spread) : Bool :=
  spread.base.isFinite && spread.offset.isFinite && spread.scale.isPositive &&
    (spread.figure 0).isFinite && (spread.figure 1).isFinite

/-- Every step of the computation of a figure keeps the order. -/
theorem figure_mono {spread : Spread} (base : spread.base.isFinite = true)
    (offset : spread.offset.isFinite = true) (scale : spread.scale.isPositive = true)
    {a b : Binary64} (le : a ≤ b)
    : spread.figure a ≤ spread.figure b :=
  add_le_add_left base (mul_le_mul_of_isPositive scale (sub_le_sub_right offset le))

theorem isFinite_figure {spread : Spread} (bounded : spread.isBounded = true) (word : UInt32)
    : (spread.figure (Draws.value word)).isFinite = true := by
  simp only [isBounded, Bool.and_eq_true] at bounded
  obtain ⟨⟨⟨⟨base, offset⟩, scale⟩, least⟩, greatest⟩ := bounded
  have low := figure_mono base offset scale (Draws.zero_le_value word)
  have high := figure_mono base offset scale (Draws.value_le_one word)
  exact isFinite_of_le_of_le low high least greatest

end Spread

-----------------------------------------------------------------------------------------
-- What holds of each draw holds of all that is drawn
-----------------------------------------------------------------------------------------

/-- Whatever the seed is, the action yields a result of this kind. -/
def Yields {α : Type} (action : StateM UInt32 α) (P : α → Prop) : Prop :=
  ∀ seed, P (Draws.outcome action seed)

namespace Yields

variable {α β : Type}

theorem pure {P : α → Prop} {a : α} (holds : P a) : Yields (pure a) P := fun _ => holds

theorem bind {action : StateM UInt32 α} {next : α → StateM UInt32 β} {P : α → Prop}
    {Q : β → Prop} (first : Yields action P) (later : ∀ a, P a → Yields (next a) Q)
    : Yields (action >>= next) Q :=
  fun seed => later _ (first seed) _

theorem any (action : StateM UInt32 α) : Yields action fun _ => True := fun _ => trivial

end Yields

theorem yields_sample {spread : Spread} (bounded : spread.isBounded = true)
    : Yields spread.sample fun v => v.isFinite = true :=
  fun seed => spread.isFinite_figure bounded (Draws.step seed)

/-- The figures of each entry are bounded. -/
def Bounded (entries : List Entry) : Prop :=
  ∀ entry ∈ entries, entry.first.isBounded = true ∧ entry.second.isBounded = true

/-- What holds of each entry made from finite figures holds of all. By induction along the
entries.
-/
theorem yields_sampleAll {α : Type} {make : String → Binary64 → Binary64 → α} {P : α → Prop}
    (made : ∀ name first second, first.isFinite = true → second.isFinite = true →
      P (make name first second))
    {entries : List Entry} (bounded : Bounded entries)
    : Yields (sampleAll make entries) fun made =>
        made.length = entries.length ∧ ∀ a ∈ made, P a := by
  induction entries with
  | nil => exact .pure ⟨rfl, List.forall_mem_nil _⟩
  | cons entry entries ih =>
      obtain ⟨here, later⟩ := List.forall_mem_cons.1 bounded
      have first : Yields (do
          let first ← entry.first.sample
          let second ← entry.second.sample
          return make entry.name first second) P :=
        (yields_sample here.1).bind fun a finite =>
          (yields_sample here.2).bind fun b finite' => .pure (made entry.name a b finite finite')
      rw [sampleAll, List.mapM_cons]
      refine first.bind fun a holds => (ih later).bind fun others ⟨length, all⟩ => .pure ?_
      exact ⟨congrArg (· + 1) length, List.forall_mem_cons.2 ⟨holds, all⟩⟩

-----------------------------------------------------------------------------------------
-- Every seed invents a snapshot with finite figures
-----------------------------------------------------------------------------------------

theorem bounded_indexEntries : Bounded indexEntries := by
  unfold Bounded
  decide +kernel

theorem bounded_sectorEntries : Bounded sectorEntries := by
  unfold Bounded
  decide +kernel

/-- A sampled snapshot has finite figures and three indices. -/
theorem yields_sampleSnapshot
    : Yields sampleSnapshot fun m => m.Finite ∧ m.indices.length = 3 := by
  have turnover : Spread.isBounded ⟨8200, 0.5, 2200⟩ = true := by decide +kernel
  have delta : Spread.isBounded ⟨0, 0.4, 16⟩ = true := by decide +kernel
  have north : Spread.isBounded ⟨0, 0.5, 120⟩ = true := by decide +kernel
  have mainForce : Spread.isBounded ⟨0, 0.5, 180⟩ = true := by decide +kernel
  have volume : Spread.isBounded ⟨0, 0.5, 24⟩ = true := by decide +kernel
  unfold sampleSnapshot
  refine (yields_sampleAll (P := IndexQuote.Finite) (fun _ _ _ => .intro)
    bounded_indexEntries).bind fun indices ⟨length, quotes⟩ => ?_
  refine (yields_sample turnover).bind fun turnoverYi finiteTurnover => ?_
  refine (yields_sample delta).bind fun turnoverDeltaPct finiteDelta => ?_
  refine (yields_sample north).bind fun northYi finiteNorth => ?_
  refine (yields_sample mainForce).bind fun mainForceYi finiteMain => ?_
  refine (Yields.any _).bind fun adv _ => (Yields.any _).bind fun decl _ => ?_
  refine (yields_sample volume).bind fun volChangePct finiteVolume => ?_
  refine (Yields.any _).bind fun upLimit _ => (Yields.any _).bind fun downLimit _ => ?_
  refine (yields_sampleAll (P := Sector.Finite) (fun _ _ _ => .intro)
    bounded_sectorEntries).bind fun sectors ⟨_, gains⟩ => .pure ⟨?_, length⟩
  exact {
    indices := quotes
    turnoverYi := finiteTurnover
    turnoverDeltaPct := fun v same => Option.some.inj same ▸ finiteDelta
    northYi := fun v same => Option.some.inj same ▸ finiteNorth
    mainForceYi := fun v same => Option.some.inj same ▸ finiteMain
    volChangePct := finiteVolume
    sectors := gains }

namespace Snapshot

/-- The scores are no part of what has to be finite. -/
theorem Finite.rescored {m : Snapshot} (finite : m.Finite) (volIntensity sentimentScore : UInt32)
    : { m with volIntensity, sentimentScore }.Finite :=
  ⟨finite.indices, finite.turnoverYi, finite.turnoverDeltaPct, finite.northYi,
    finite.mainForceYi, finite.volChangePct, finite.sectors⟩

theorem indices_withScores {m : Snapshot} (three : m.indices.length = 3)
    : m.withScores.indices ≠ [] := by
  intro none
  have empty : m.indices = [] := none
  rw [empty] at three
  contradiction

/-- Scores are computed from the other parts, so computing them again changes nothing. -/
theorem withScores_withScores (m : Snapshot) : m.withScores.withScores = m.withScores := rfl

end Snapshot

theorem invented_eq (seed : UInt32)
    : invented seed = (Draws.outcome sampleSnapshot seed).withScores :=
  rfl

theorem finite_invented (seed : UInt32) : (invented seed).Finite := by
  rw [invented_eq]
  exact (yields_sampleSnapshot seed).1.rescored _ _

theorem indices_invented (seed : UInt32) : (invented seed).indices ≠ [] := by
  rw [invented_eq]
  exact Snapshot.indices_withScores (yields_sampleSnapshot seed).2

/-- The scores of an invented snapshot are those of its other parts. -/
theorem withScores_invented (seed : UInt32) : (invented seed).withScores = invented seed := by
  rw [invented_eq, Snapshot.withScores_withScores]

end Screener.Market
