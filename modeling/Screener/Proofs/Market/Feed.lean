import Screener.Market.Report
import Screener.Proofs.Market.Invented

/-!
A feed either gives all of a snapshot or nothing of it. What it gives is decided by its text
alone; the scores that it states count for nothing, and a snapshot that is written and fed back
stays what it is.
-/

namespace Screener.Market

open Json (Written)

-----------------------------------------------------------------------------------------
-- A content holds a snapshot, or something is wrong with it
-----------------------------------------------------------------------------------------

/-- The content is a text, that of a tree that says the snapshot. -/
def Holds (content : Except FileProblem String) (m : Snapshot) : Prop :=
  ∃ w : Written, content = .ok w.text ∧ Snapshot.ofTree? w.tree = some m

theorem holds_ok {text : String} {m : Snapshot}
    : Holds (.ok text) m ↔ Snapshot.parse text = .ok m := by
  rw [Snapshot.parse_eq_ok]
  refine exists_congr fun w => and_congr_left fun _ => ?_
  exact ⟨fun same => (Except.ok.inj same).symm, congrArg Except.ok ∘ Eq.symm⟩

variable {path : String} {content : Except FileProblem String}

theorem readFeed_of_holds {m : Snapshot} (holds : Holds content m)
    : readFeed path content = if m.indices.isEmpty then .error .noIndices else .ok m := by
  cases content with
  | error cause =>
      obtain ⟨_, same, _⟩ := holds
      contradiction
  | ok text => rw [readFeed, holds_ok.1 holds]

/-- A feed gives a snapshot if its content says one with an index. -/
theorem readFeed_eq_ok {m : Snapshot} (holds : Holds content m) (indices : m.indices ≠ [])
    : readFeed path content = .ok m := by
  rw [readFeed_of_holds holds, if_neg (mt List.isEmpty_iff.1 indices)]

theorem holds_of_told {m : Snapshot} (finite : m.Finite) {text : String}
    (told : m.document.ToldBy text)
    : Holds (.ok text) m := by
  obtain ⟨w, rfl, holds⟩ := Snapshot.exists_written finite told
  exact ⟨w, rfl, holds⟩

-- A snapshot with one index and no sectors, with scores that are not those of its other parts.
namespace Lone

def snapshot : Snapshot where
  indices := [⟨"上证", 3100.5, -0.25⟩]
  turnoverYi := 8200
  turnoverDeltaPct := some (-0.0)
  northYi := none
  mainForceYi := none
  adv := 1800
  decl := 900
  volChangePct := 1e-7
  upLimit := 30
  downLimit := 2
  sectors := []
  volIntensity := 100
  sentimentScore := 4294967295

theorem finite : snapshot.Finite where
  indices := by
    unfold IndexQuote.Finite
    decide +kernel
  turnoverYi := by decide +kernel
  turnoverDeltaPct := (Option.all_eq_true _ _).1 (by decide +kernel)
  northYi := (Option.all_eq_true _ _).1 (by decide +kernel)
  mainForceYi := (Option.all_eq_true _ _).1 (by decide +kernel)
  volChangePct := by decide +kernel
  sectors := List.forall_mem_nil _

/-- The same with other scores. -/
def rescored : Snapshot := { snapshot with volIntensity := 0, sentimentScore := 0 }

theorem indices : snapshot.indices ≠ [] := List.cons_ne_nil _ _

theorem holds : Holds (.ok snapshot.document.render) snapshot :=
  holds_of_told finite (.inl List.mem_cons_self)

end Lone

-----------------------------------------------------------------------------------------
-- What is exported is imported
-----------------------------------------------------------------------------------------

/-- A text that tells a snapshot is a feed of it. -/
theorem resolve_told {m : Snapshot} (finite : m.Finite) (indices : m.indices ≠ [])
    {text : String} (told : m.document.ToldBy text) (path : String) (seed : UInt32)
    : resolve (some (readFeed path (.ok text))) seed = ⟨m.withScores, .live⟩ := by
  rw [readFeed_eq_ok (holds_of_told finite told) indices]
  rfl

/-- What is exported is imported unchanged. A text that tells a snapshot is a live feed of it, with
the scores computed anew. So a text that tells the snapshot in the report on an invented one is a
live feed of the same, and the reports differ in their source and seed alone.
-/
theorem resolve_exported (path : String)
    : (∀ (m : Snapshot) (seed : UInt32) (text : String),
        m.Finite → m.indices ≠ [] → m.document.ToldBy text →
          resolve (some (readFeed path (.ok text))) seed = ⟨m.withScores, .live⟩)
      ∧ ∀ (seed seed' : UInt32) (text : String),
        ((resolve none seed).document.member "snapshot").ToldBy text →
          let again := resolve (some (readFeed path (.ok text))) seed'
          again.snapshot = invented seed ∧ again.source = .live ∧ again.source.notice? = none
            ∧ ∃ members,
              (resolve none seed).document
                = .object
                  (("source", .text "generated") :: ("seed", .ofWord seed) :: members)
              ∧ again.document
                = .object (("source", .text "live") :: ("seed", .null) :: members) := by
  refine ⟨fun m seed text finite indices told => resolve_told finite indices told path seed, ?_⟩
  intro seed seed' text told again
  have told : (invented seed).document.ToldBy text := told
  have live : again = ⟨invented seed, .live⟩ := by
    dsimp only [again]
    rw [resolve_told (finite_invented seed) (indices_invented seed) told, withScores_invented]
  rw [live]
  exact ⟨rfl, rfl, rfl, _, rfl, rfl⟩

/-- Witness: a snapshot without sectors, and the one invented from zero. -/
theorem resolve_exported_lone
    : Lone.snapshot.Finite
      ∧ resolve (some (readFeed "feed.json" (.ok Lone.snapshot.document.canonical.renderLines))) 7
        = ⟨Lone.snapshot.withScores, .live⟩
      ∧ (resolve (some (readFeed "feed.json" (.ok (invented 0).document.render))) 7).snapshot
        = invented 0 := by
  obtain ⟨own, again⟩ := resolve_exported "feed.json"
  have told : Lone.snapshot.document.ToldBy Lone.snapshot.document.canonical.renderLines :=
    .inl (by simp [Json.Value.texts])
  exact ⟨Lone.finite, own _ 7 _ Lone.finite Lone.indices told,
    (again 0 7 _ (.inl List.mem_cons_self)).1⟩

end Screener.Market
