import Screener.Market.Document
import Screener.Proofs.Json.Finite
import Screener.Proofs.Json.Printing

/-!
Snapshots are read back from their documents, as long as their floats are numbers. A text stands
for a snapshot just if it is that of a tree that says one.
-/

namespace Screener.Market

open Json
open Json.Value (Fits distinct_limit distinct_ofFloat distinct_ofWord fits_limit fits_ofFloat
  fits_ofWord)

-----------------------------------------------------------------------------------------
-- Indices and sectors are names with figures
-----------------------------------------------------------------------------------------

/-- A name with figures, as a document holds it. -/
def figured (name : String) (figures : List (String × Binary64)) : Value :=
  .object (("name", .text name) :: figures.map fun figure => (figure.1, .ofFloat figure.2))

theorem fits_figured (depth : Nat) (name : String) (figures : List (String × Binary64))
    : Fits (depth + 2) (figured name figures) := by
  refine .object (List.forall_mem_cons.2 ⟨.text name, ?_⟩)
  exact List.forall_mem_map.2 fun figure _ => fits_ofFloat _ figure.2

theorem distinct_figured {figures : List (String × Binary64)}
    (names : ("name" :: figures.map Prod.fst).Nodup) (name : String)
    : (figured name figures).Distinct := by
  refine .object ?_ (List.forall_mem_cons.2 ⟨.text name, ?_⟩)
  · rw [List.map_cons, List.map_map]
    exact names
  · exact List.forall_mem_map.2 fun figure _ => distinct_ofFloat figure.2

namespace IndexQuote

/-- Both floats are finite. -/
def Finite (quote : IndexQuote) : Prop :=
  quote.value.isFinite = true ∧ quote.chgPct.isFinite = true

def layout :=
  Layout.field "name" follows_string none <|
  Layout.field "value" follows_float none <|
  Layout.field "chgPct" follows_float none .done

/-- The index that a tree says. -/
def ofTree? (t : Tree) : Option IndexQuote :=
  (layout.decode t).map fun (name, value, chgPct, ()) => ⟨name, value, chgPct⟩

theorem follows_reader : reader.Follows ofTree? :=
  (Layout.follows_record (by decide) "IndexQuote").map _ fun _ => rfl

theorem finite_of_ofTree? {t : Tree} {quote : IndexQuote} (said : ofTree? t = some quote)
    : quote.Finite := by
  obtain ⟨_, decoded, rfl⟩ := Option.map_eq_some_iff.1 said
  obtain ⟨_, value, chgPct, _⟩ := Layout.sourced_of_decode decoded
  exact ⟨isFinite_of_source value, isFinite_of_source chgPct⟩

theorem means_document {quote : IndexQuote} (finite : quote.Finite)
    : quote.document.Means ofTree? quote := by
  intro t tells
  have stated : Layout.Stated layout _ (quote.name, quote.value, quote.chgPct, ()) :=
    .field (means_string quote.name) <| .field (means_float finite.1) <|
      .field (means_float finite.2) .done
  rw [ofTree?, stated.means (by decide) t tells]
  rfl

theorem fits_document (depth : Nat) (quote : IndexQuote)
    : Fits (depth + 2) quote.document :=
  fits_figured depth quote.name [("value", quote.value), ("chgPct", quote.chgPct)]

theorem distinct_document (quote : IndexQuote) : quote.document.Distinct :=
  @distinct_figured [("value", quote.value), ("chgPct", quote.chgPct)]
    (show layout.names.Nodup by decide) quote.name

end IndexQuote

namespace Sector

/-- Both floats are finite. -/
def Finite (s : Sector) : Prop := s.gainPct.isFinite = true ∧ s.moneyYi.isFinite = true

def layout :=
  Layout.field "name" follows_string none <|
  Layout.field "gainPct" follows_float none <|
  Layout.field "moneyYi" follows_float none .done

/-- The sector that a tree says. -/
def ofTree? (t : Tree) : Option Sector :=
  (layout.decode t).map fun (name, gainPct, moneyYi, ()) => ⟨name, gainPct, moneyYi⟩

theorem follows_reader : reader.Follows ofTree? :=
  (Layout.follows_record (by decide) "Sector").map _ fun _ => rfl

theorem finite_of_ofTree? {t : Tree} {s : Sector} (said : ofTree? t = some s) : s.Finite := by
  obtain ⟨_, decoded, rfl⟩ := Option.map_eq_some_iff.1 said
  obtain ⟨_, gainPct, moneyYi, _⟩ := Layout.sourced_of_decode decoded
  exact ⟨isFinite_of_source gainPct, isFinite_of_source moneyYi⟩

theorem means_document {s : Sector} (finite : s.Finite)
    : s.document.Means ofTree? s := by
  intro t tells
  have stated : Layout.Stated layout _ (s.name, s.gainPct, s.moneyYi, ()) :=
    .field (means_string s.name) <| .field (means_float finite.1) <|
      .field (means_float finite.2) .done
  rw [ofTree?, stated.means (by decide) t tells]
  rfl

theorem fits_document (depth : Nat) (s : Sector) : Fits (depth + 2) s.document :=
  fits_figured depth s.name [("gainPct", s.gainPct), ("moneyYi", s.moneyYi)]

theorem distinct_document (s : Sector) : s.document.Distinct :=
  @distinct_figured [("gainPct", s.gainPct), ("moneyYi", s.moneyYi)]
    (show layout.names.Nodup by decide) s.name

end Sector

-----------------------------------------------------------------------------------------
-- Snapshots
-----------------------------------------------------------------------------------------

namespace Snapshot

/-- The floats of the snapshot are finite, or absent where they may be. -/
structure Finite (m : Snapshot) : Prop where
  indices : ∀ quote ∈ m.indices, quote.Finite
  turnoverYi : m.turnoverYi.isFinite = true
  turnoverDeltaPct : ∀ v, m.turnoverDeltaPct = some v → v.isFinite = true
  northYi : ∀ v, m.northYi = some v → v.isFinite = true
  mainForceYi : ∀ v, m.mainForceYi = some v → v.isFinite = true
  volChangePct : m.volChangePct.isFinite = true
  sectors : ∀ s ∈ m.sectors, s.Finite

def layout :=
  Layout.field "indices" (follows_list IndexQuote.follows_reader) none <|
  Layout.field "turnoverYi" follows_float none <|
  Layout.field "turnoverDeltaPct" (follows_optional follows_float) (some .none) <|
  Layout.field "northYi" (follows_optional follows_float) (some .none) <|
  Layout.field "mainForceYi" (follows_optional follows_float) (some .none) <|
  Layout.field "adv" follows_word none <|
  Layout.field "decl" follows_word none <|
  Layout.field "volChangePct" follows_float none <|
  Layout.field "upLimit" follows_word none <|
  Layout.field "downLimit" follows_word none <|
  Layout.field "sectors" (follows_list Sector.follows_reader) none <|
  Layout.field "volIntensity" follows_word (some 0) <|
  Layout.field "sentimentScore" follows_word (some 0) .done

theorem names_layout : layout.names.Nodup := by decide

/-- The snapshot that a tree says. Each member may stand there once; the three flows and the two
scores may be left out, all others may not.
-/
def ofTree? (t : Tree) : Option Snapshot :=
  (layout.decode t).map fun (indices, turnoverYi, turnoverDeltaPct, northYi, mainForceYi, adv,
      decl, volChangePct, upLimit, downLimit, sectors, volIntensity, sentimentScore, ()) =>
    ⟨indices, turnoverYi, turnoverDeltaPct, northYi, mainForceYi, adv, decl, volChangePct,
      upLimit, downLimit, sectors, volIntensity, sentimentScore⟩

theorem follows_reader : reader.Follows ofTree? :=
  (Layout.follows_record names_layout "MarketSnapshot").map _ fun _ => rfl

/-- A text is read as a snapshot just if it is that of a tree that says the snapshot. -/
theorem parse_eq_ok {text : String} {m : Snapshot}
    : parse text = .ok m ↔ ∃ w : Written, w.text = text ∧ ofTree? w.tree = some m :=
  follows_reader.document_eq_ok

/-- A snapshot that is read has finite floats. -/
theorem finite_of_parse {text : String} {m : Snapshot} (read : parse text = .ok m) : m.Finite := by
  obtain ⟨w, _, said⟩ := parse_eq_ok.1 read
  obtain ⟨_, decoded, rfl⟩ := Option.map_eq_some_iff.1 said
  obtain ⟨indices, turnover, delta, north, main, _, _, volume, _, _, sectors, _⟩ :=
    Layout.sourced_of_decode decoded
  have all {α : Type} {ofTree? : Tree → Option α} {P : α → Prop} {as : List α}
      (finite : ∀ {t a}, ofTree? t = some a → P a)
      (source : (∃ t, Tree.list? ofTree? t = some as) ∨ none = some as)
      : ∀ a ∈ as, P a := by
    intro a member
    rcases source with ⟨t, said⟩ | absent
    · obtain ⟨_, own⟩ := Tree.exists_of_mem_list? said member
      exact finite own
    · contradiction
  have flow {x : Option Binary64}
      (source : (∃ t, Tree.optional? Tree.float? t = some x) ∨ some none = some x)
      : ∀ v, x = some v → v.isFinite = true :=
    (Option.all_eq_true _ _).1 (all_isFinite_of_source source)
  exact {
    indices := all IndexQuote.finite_of_ofTree? indices
    turnoverYi := isFinite_of_source turnover
    turnoverDeltaPct := flow delta
    northYi := flow north
    mainForceYi := flow main
    volChangePct := isFinite_of_source volume
    sectors := all Sector.finite_of_ofTree? sectors }

theorem means_document {m : Snapshot} (finite : m.Finite)
    : m.document.Means ofTree? m := by
  intro t tells
  have indices := means_list fun quote member =>
    IndexQuote.means_document (finite.indices quote member)
  have sectors := means_list fun s member => Sector.means_document (finite.sectors s member)
  have stated : Layout.Stated layout _
      (m.indices, m.turnoverYi, m.turnoverDeltaPct, m.northYi, m.mainForceYi, m.adv, m.decl,
        m.volChangePct, m.upLimit, m.downLimit, m.sectors, m.volIntensity, m.sentimentScore, ()) :=
    .field indices <| .field (means_float finite.turnoverYi) <|
      .field (means_limit finite.turnoverDeltaPct) <| .field (means_limit finite.northYi) <|
      .field (means_limit finite.mainForceYi) <| .field (means_word m.adv) <|
      .field (means_word m.decl) <| .field (means_float finite.volChangePct) <|
      .field (means_word m.upLimit) <| .field (means_word m.downLimit) <| .field sectors <|
      .field (means_word m.volIntensity) <| .field (means_word m.sentimentScore) .done
  rw [ofTree?, stated.means names_layout t tells]
  rfl

/-- A snapshot has a document whatever its floats are. -/
theorem fits_document (depth : Nat) (m : Snapshot) : Fits (depth + 4) m.document := by
  have indices : Fits (depth + 3) (.list (m.indices.map IndexQuote.document)) :=
    .list (List.forall_mem_map.2 fun quote _ => quote.fits_document depth)
  have sectors : Fits (depth + 3) (.list (m.sectors.map Sector.document)) :=
    .list (List.forall_mem_map.2 fun s _ => s.fits_document depth)
  refine .object ?_
  simp only [List.forall_mem_cons]
  exact ⟨indices, fits_ofFloat _ _, fits_limit _ _, fits_limit _ _, fits_limit _ _, fits_ofWord _ _,
    fits_ofWord _ _, fits_ofFloat _ _, fits_ofWord _ _, fits_ofWord _ _, sectors,
    fits_ofWord _ _, fits_ofWord _ _, List.forall_mem_nil _⟩

theorem distinct_document (m : Snapshot) : m.document.Distinct := by
  have indices : (Value.list (m.indices.map IndexQuote.document)).Distinct :=
    .list (List.forall_mem_map.2 fun quote _ => quote.distinct_document)
  have sectors : (Value.list (m.sectors.map Sector.document)).Distinct :=
    .list (List.forall_mem_map.2 fun s _ => s.distinct_document)
  refine .object names_layout ?_
  simp only [List.forall_mem_cons]
  exact ⟨indices, distinct_ofFloat _, distinct_limit _, distinct_limit _, distinct_limit _,
    distinct_ofWord _, distinct_ofWord _, distinct_ofFloat _, distinct_ofWord _,
    distinct_ofWord _, sectors, distinct_ofWord _, distinct_ofWord _, List.forall_mem_nil _⟩

/-- Each text that tells the document of a snapshot is that of a tree that says the snapshot. -/
theorem exists_written {m : Snapshot} (finite : m.Finite) {text : String}
    (told : m.document.ToldBy text)
    : ∃ w : Written, w.text = text ∧ ofTree? w.tree = some m := by
  obtain ⟨w, same, tells⟩ := told.exists_written (m.fits_document 0) m.distinct_document
  exact ⟨w, same, means_document finite w.tree tells⟩

end Snapshot

end Screener.Market
