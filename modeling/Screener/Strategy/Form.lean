import Screener.Decimal.Literal
import Screener.Strategy.Codes

/-!
Strategies from the texts of a form. What is blank or makes no sense asks for nothing.
-/

namespace Screener

/-- The finite number in a text, blanks around it aside. -/
def optionalNumber (text : String) : Option Binary64 :=
  match Decimal.literal (Text.trim text.toList) with
  | .ok v => if v.isFinite then some v else none
  | .error _ => none

/-- The texts of a form, as they were typed. -/
structure Form where
  name : String := ""
  peMax : String := ""
  mcapMaxYi : String := ""
  turnMinPct : String := ""
  tech : String := ""
  note : String := ""
  takeProfitPct : String := ""
  stopLossPct : String := ""
  exitPattern : String := ""
  wording : String := ""
deriving DecidableEq, Repr

/-- The draft that a form describes. -/
def Form.strategy (form : Form) (now : Timestamp) : Strategy :=
  Strategy.withTags {
    id := none
    name := Text.trimmed form.name
    createdAt := now
    filters := {
      peMax := optionalNumber form.peMax
      mcapMaxYi := optionalNumber form.mcapMaxYi
      turnMinPct := optionalNumber form.turnMinPct
      tech := Trigger.ofCode? form.tech
      note := Text.trimmed form.note }
    exits := {
      takeProfitPct := optionalNumber form.takeProfitPct
      stopLossPct := optionalNumber form.stopLossPct
      pattern := ExitPattern.ofCode? form.exitPattern }
    tags := []
    wording := Text.trimmed form.wording }

end Screener
