import Screener.Json.Fields
import Screener.Security.Basic

/-!
Securities as documents hold them.
-/

namespace Screener

namespace TechFlags

def document (tech : TechFlags) : Json.Value :=
  .object
    [("ma5Up", .boolean tech.risingAverage), ("break20d", .boolean tech.breakout),
      ("rsiRebound", .boolean tech.rebound)]

def reader : Json.Reader TechFlags := fun text =>
  let fields :=
    Json.Fields.field "ma5Up" Json.boolean none <|
    Json.Fields.field "break20d" Json.boolean none <|
    Json.Fields.field "rsiRebound" Json.boolean none .done
  (fields.record "TechFlags" text).map fun
    | ((risingAverage, breakout, rebound, ()), rest) =>
      (⟨risingAverage, breakout, rebound⟩, rest)

end TechFlags

namespace Profile

def document (profile : Profile) : Json.Value :=
  .object
    [("region", .text profile.region), ("concepts", .list (profile.concepts.map .text))]

def reader : Json.Reader Profile := fun text =>
  let fields :=
    Json.Fields.field "region" Json.string none <|
    Json.Fields.field "concepts" (Json.list Json.string) (some []) .done
  (fields.record "Profile" text).map fun
    | ((region, concepts, ()), rest) => (⟨region, concepts⟩, rest)

end Profile

namespace Security

def document (s : Security) : Json.Value :=
  .object
    [("code", .text s.code), ("name", .text s.name), ("industry", .text s.industry),
      ("mcapYi", .ofFloat s.mcapYi), ("pe", .ofFloat s.pe),
      ("turnoverPct", .ofFloat s.turnoverPct), ("price", .ofFloat s.price),
      ("changePct", .ofFloat s.changePct), ("tech", s.tech.document),
      ("profile", s.profile.document)]

def reader : Json.Reader Security := fun text =>
  let fields :=
    Json.Fields.field "code" Json.string none <|
    Json.Fields.field "name" Json.string none <|
    Json.Fields.field "industry" Json.string none <|
    Json.Fields.field "mcapYi" Json.float none <|
    Json.Fields.field "pe" Json.float none <|
    Json.Fields.field "turnoverPct" Json.float none <|
    Json.Fields.field "price" Json.float none <|
    Json.Fields.field "changePct" Json.float none <|
    Json.Fields.field "tech" TechFlags.reader none <|
    Json.Fields.field "profile" Profile.reader none .done
  (fields.record "Security" text).map fun
    | ((code, name, industry, mcapYi, pe, turnoverPct, price, changePct, tech, profile, ()),
        rest) =>
      (⟨code, name, industry, mcapYi, pe, turnoverPct, price, changePct, tech, profile⟩, rest)

end Security

end Screener
