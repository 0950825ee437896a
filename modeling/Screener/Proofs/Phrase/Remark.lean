import Screener.Phrase.Rule
import Screener.Proofs.Phrase.Scanning

/-!
The clauses of a summary as remarks, each about one topic. Every rule has words that stand in
the wording of its own topic alone, so that a clause about another topic avoids them.
-/

namespace Screener.Phrase

open Text

-----------------------------------------------------------------------------------------
-- Remarks
-----------------------------------------------------------------------------------------

/-- What a clause of a summary is about. -/
inductive Topic where
  | nothing
  | limit (limit : Limit)
  | trigger (trigger : Trigger)
  | exit (pattern : ExitPattern)
deriving DecidableEq

namespace Topic

/-- The wording of a clause, before its number if it has one. -/
def opening : Topic → String
  | .nothing => Strategy.emptySummary
  | .limit .peMax => "PE≤"
  | .limit .mcapMaxYi => "市值≤"
  | .limit .turnMinPct => "换手≥"
  | .limit .takeProfitPct => "止盈"
  | .limit .stopLossPct => "止损"
  | .trigger t => "技术：" ++ t.label
  | .exit p => "形态：" ++ p.label

/-- The unit behind the number of a clause. -/
def unit : Topic → String
  | .limit .mcapMaxYi => "亿"
  | .limit .turnMinPct | .limit .takeProfitPct | .limit .stopLossPct => "%"
  | _ => ""

/-- Every topic. -/
def all : List Topic :=
  .nothing
    :: [.peMax, .mcapMaxYi, .turnMinPct, .takeProfitPct, .stopLossPct].map .limit
    ++ Trigger.all.map .trigger
    ++ [.closeBelowAverage, .bearishEngulfing, .volumeBreakdown].map .exit

theorem mem_all (topic : Topic) : topic ∈ all := by
  cases topic with
  | nothing => decide
  | limit limit => cases limit <;> decide
  | trigger trigger => cases trigger <;> decide
  | exit pattern => cases pattern <;> decide

end Topic

/-- The topic of what a rule looks for. -/
def Clause.topic : Clause → Topic
  | .limit part _ => .limit part
  | .trigger signal _ => .trigger signal
  | .exit pattern _ => .exit pattern

/-- What stands between two clauses. -/
def separator : List Char := " · ".toList

/-- A group of words stands in the wording of no other topic, nor in what is between. -/
def marks (ignoreCase : Bool) (own : Topic) (words : List String) : Bool :=
  (numerals ++ separator).all (fun c => words.all fun word => clashes word.toList [c])
    && Topic.all.all fun topic =>
      topic == own || (avoidsAll words (topic.opening.toList.map (inCase ignoreCase))
        && avoidsAll words (topic.unit.toList.map (inCase ignoreCase)))

/-- A clause is kept apart by its words: those before the number, or one group of those that
stand in order.
-/
def Clause.marked (clause : Clause) : Bool :=
  match clause with
  | .limit _ phrase => marks phrase.ignoreCase clause.topic phrase.keywords
  | .trigger _ words | .exit _ words => words.groups.any (marks words.ignoreCase clause.topic)

theorem marked_of_mem_rules : ∀ rule ∈ rules, rule.clause.marked = true :=
  List.all_eq_true.1 (by decide +kernel)

theorem avoidsAll_separator {ignoreCase : Bool} {own : Topic} {words : List String}
    (marked : marks ignoreCase own words = true)
    : avoidsAll words separator = true := by
  simp only [marks, Bool.and_eq_true, List.all_eq_true] at marked
  simp only [avoidsAll, List.all_eq_true]
  intro word member
  exact avoids_of_forall fun c inside =>
    marked.1 c (List.mem_append_right numerals inside) word member

/-- Words that mark a topic are not empty, and so not found in a text that avoids them. -/
theorem afterFirst?_of_marks {ignoreCase : Bool} {own : Topic} {words : List String}
    (marked : marks ignoreCase own words = true) {text : List Char}
    (avoid : avoidsAll words text = true)
    : ∀ word ∈ words, afterFirst? word.toList text = none := by
  intro word member
  simp only [marks, Bool.and_eq_true, List.all_eq_true] at marked
  simp only [avoidsAll, List.all_eq_true] at avoid
  have some := marked.1 '-' (by decide) word member
  have passed := afterFirst?_append (avoid word member) []
  rw [List.append_nil] at passed
  rw [passed]
  cases letters : word.toList with
  | nil => simp [letters, clashes] at some
  | cons c letters => rfl

-----------------------------------------------------------------------------------------
-- Texts of remarks
-----------------------------------------------------------------------------------------

/-- A clause of a summary. -/
inductive Remark where
  | nothing
  | limit (limit : Limit) (v : Binary64)
  | trigger (trigger : Trigger)
  | exit (pattern : ExitPattern)

/-- The limit is one that a sign may stand before. -/
def Limit.isSigned : Limit → Bool
  | .takeProfitPct | .stopLossPct => true
  | .peMax | .mcapMaxYi | .turnMinPct => false

namespace Remark

def topic : Remark → Topic
  | nothing => .nothing
  | limit part _ => .limit part
  | trigger signal => .trigger signal
  | exit pattern => .exit pattern

/-- The number of the clause, as it is written. -/
def digits : Remark → List Char
  | limit _ v => (Decimal.plain v).toList
  | _ => []

def text (r : Remark) : List Char :=
  r.topic.opening.toList ++ r.digits ++ r.topic.unit.toList

/-- The number of the clause if it is about a limit. -/
def number? (part : Limit) : Remark → Option Binary64
  | limit other v => if other = part then some v else none
  | _ => none

/-- The number of the clause can be read where it stands. -/
def Readable : Remark → Prop
  | limit part v => v.isFinite = true ∧ (part.isSigned = false → v.signBit = false)
  | _ => True

theorem mem_numerals_of_mem_digits {r : Remark} (readable : r.Readable) {c : Char}
    (member : c ∈ r.digits)
    : c ∈ numerals := by
  cases r with
  | limit part v => exact mem_numerals_of_mem_plain readable.1 member
  | nothing | trigger _ | exit _ => contradiction

/-- What holds of the wording of every topic and of numerals holds of a whole clause. -/
theorem forall_mem_text {p : Char → Bool} {r : Remark} (readable : r.Readable)
    (wording
      : Topic.all.all (fun topic => topic.opening.toList.all p && topic.unit.toList.all p)
        = true)
    (number : numerals.all p = true)
    : ∀ c ∈ r.text, p c = true := by
  simp only [List.all_eq_true, Bool.and_eq_true] at wording number
  obtain ⟨opening, unit⟩ := wording r.topic (Topic.mem_all _)
  intro c member
  rw [text, List.mem_append, List.mem_append] at member
  rcases member with (member | member) | member
  · exact opening c member
  · exact number c (mem_numerals_of_mem_digits readable member)
  · exact unit c member

/-- A clause is made of plain characters: none is blank, and none is a letter with a case
that ASCII does not know.
-/
theorem plain {r : Remark} (readable : r.Readable)
    : ∀ c ∈ r.text, isBlank c = false ∧ hasPlainCase c = true := by
  have all := forall_mem_text (p := fun c => !isBlank c && hasPlainCase c) readable
    (by decide +kernel) (by decide +kernel)
  intro c member
  simpa using all c member

theorem text_ne_nil (r : Remark) : r.text ≠ [] := by
  have some : Topic.all.all (fun topic => !topic.opening.toList.isEmpty) = true := by
    decide
  have own := List.all_eq_true.1 some r.topic (Topic.mem_all _)
  intro none
  rw [text, List.append_assoc, List.append_eq_nil_iff] at none
  rw [none.1] at own
  contradiction

/-- A clause is tight: no blank stands in it at all. -/
theorem tight {r : Remark} (readable : r.Readable) : Tight r.text :=
  Tight.of_forall r.text_ne_nil fun c member => (plain readable c member).1

/-- Case does not touch the number of a clause. -/
theorem map_inCase_text (ignoreCase : Bool) {r : Remark} (readable : r.Readable)
    : r.text.map (inCase ignoreCase)
      = r.topic.opening.toList.map (inCase ignoreCase) ++ r.digits
        ++ r.topic.unit.toList.map (inCase ignoreCase) := by
  have same : numerals.all (fun c => inCase ignoreCase c == c) = true := by
    cases ignoreCase <;> decide
  have number : r.digits.map (inCase ignoreCase) = r.digits.map id :=
    List.map_congr_left fun c member => beq_iff_eq.1
      (List.all_eq_true.1 same c (mem_numerals_of_mem_digits readable member))
  rw [text, List.map_append, List.map_append, number, List.map_id]

/-- A clause does not break its line, in either case. -/
theorem unbroken (ignoreCase : Bool) {r : Remark} (readable : r.Readable)
    : ∀ c ∈ r.text.map (inCase ignoreCase), isLineBreak c = false := by
  have solid := forall_mem_text (p := fun c => !isLineBreak (inCase ignoreCase c)) readable
    (by cases ignoreCase <;> decide +kernel) (by cases ignoreCase <;> decide +kernel)
  intro c member
  obtain ⟨d, inside, rfl⟩ := List.mem_map.1 member
  simpa using solid d inside

/-- A clause about another topic avoids the words that mark a topic. -/
theorem avoidsAll_of_marks {ignoreCase : Bool} {own : Topic} {words : List String}
    (marked : marks ignoreCase own words = true) {r : Remark} (readable : r.Readable)
    (other : r.topic ≠ own)
    : avoidsAll words (r.text.map (inCase ignoreCase)) = true := by
  simp only [marks, Bool.and_eq_true, List.all_eq_true, Bool.or_eq_true, beq_iff_eq] at marked
  obtain ⟨number, wording⟩ := marked
  obtain ⟨opening, unit⟩ := (wording r.topic (Topic.mem_all _)).resolve_left other
  rw [map_inCase_text ignoreCase readable]
  refine avoidsAll_append (avoidsAll_append opening ?_) unit
  simp only [avoidsAll, List.all_eq_true]
  intro word member
  exact avoids_of_forall fun c inside =>
    number c (by simp [mem_numerals_of_mem_digits readable inside]) word member

end Remark

end Screener.Phrase
