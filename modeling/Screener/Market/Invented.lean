import Screener.Draws
import Screener.Market.Snapshot

/-!
Snapshots invented from a seed. Every figure is drawn from one stream in a fixed order, so a
seed always gives the same snapshot.
-/

namespace Screener.Market

/-- A figure drawn as `base + (draw - offset) * scale`. -/
structure Spread where
  base : Binary64
  offset : Binary64
  scale : Binary64

namespace Spread

/-- The figure that a draw stands for. -/
def figure (spread : Spread) (draw : Binary64) : Binary64 :=
  spread.base + (draw - spread.offset) * spread.scale

/-- The next figure. -/
def sample (spread : Spread) : StateM UInt32 Binary64 := spread.figure <$> Draws.next

/-- The next figure as a count. -/
def count (spread : Spread) : StateM UInt32 UInt32 :=
  (fun v => UInt32.ofNat (v.toWhole 0 (UInt32.size - 1))) <$> spread.sample

end Spread

/-- An entry of a table: a name, and how its two figures are drawn one after the other. -/
structure Entry where
  name : String
  first : Spread
  second : Spread

/-- The entries made from their names and figures. -/
def sampleAll {α : Type} (make : String → Binary64 → Binary64 → α) (entries : List Entry)
    : StateM UInt32 (List α) :=
  entries.mapM fun entry => do
    let first ← entry.first.sample
    let second ← entry.second.sample
    return make entry.name first second

/-- The indices, each with its level and its change. -/
def indexEntries : List Entry :=
  [⟨"上证", ⟨3120, 0.5, 40⟩, ⟨0, 0.48, 1.2⟩⟩,
    ⟨"深成", ⟨9820, 0.5, 120⟩, ⟨0, 0.5, 1.6⟩⟩,
    ⟨"创业板", ⟨1980, 0.5, 60⟩, ⟨0, 0.5, 2.2⟩⟩]

/-- The sectors, each with its gain and its flow of money. -/
def sectorEntries : List Entry :=
  [⟨"AI应用", ⟨0.6, 0, 5.8⟩, ⟨0, 0.35, 90⟩⟩,
    ⟨"半导体", ⟨0, 0.2, 5⟩, ⟨0, 0.3, 80⟩⟩,
    ⟨"医药", ⟨0, 0.45, 4⟩, ⟨0, 0.5, 60⟩⟩,
    ⟨"新能源", ⟨0, 0.55, 5⟩, ⟨0, 0.4, 85⟩⟩,
    ⟨"券商", ⟨0, 0.2, 6.2⟩, ⟨0, 0.2, 110⟩⟩,
    ⟨"消费", ⟨0, 0.55, 3⟩, ⟨0, 0.5, 55⟩⟩,
    ⟨"军工", ⟨0, 0.35, 5.2⟩, ⟨0, 0.45, 70⟩⟩]

/-- The figures of a snapshot in the order of their draws; the scores are left at zero. -/
def sampleSnapshot : StateM UInt32 Snapshot := do
  let indices ← sampleAll IndexQuote.mk indexEntries
  let turnoverYi ← Spread.sample ⟨8200, 0.5, 2200⟩
  let turnoverDeltaPct ← Spread.sample ⟨0, 0.4, 16⟩
  let northYi ← Spread.sample ⟨0, 0.5, 120⟩
  let mainForceYi ← Spread.sample ⟨0, 0.5, 180⟩
  let adv ← Spread.count ⟨900, 0, 2300⟩
  let decl ← Spread.count ⟨700, 0, 2000⟩
  let volChangePct ← Spread.sample ⟨0, 0.5, 24⟩
  let upLimit ← Spread.count ⟨20, 0, 90⟩
  let downLimit ← Spread.count ⟨3, 0, 28⟩
  let sectors ← sampleAll Sector.mk sectorEntries
  return {
    indices, turnoverYi, adv, decl, volChangePct, upLimit, downLimit, sectors
    turnoverDeltaPct := some turnoverDeltaPct
    northYi := some northYi
    mainForceYi := some mainForceYi
    volIntensity := 0
    sentimentScore := 0 }

/-- The snapshot invented from a seed. -/
def invented (seed : UInt32) : Snapshot := (sampleSnapshot.run seed).1.withScores

/-- The seed used where none is given. -/
def defaultSeed : UInt32 := 1234567

end Screener.Market
