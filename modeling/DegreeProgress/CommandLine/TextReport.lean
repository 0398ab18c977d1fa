import DegreeProgress.Audit.Report
import DegreeProgress.Decimal.Layout

/-!
# Reports and catalogs as lines

One line for each requirement of a report, and one for each part of a catalog.
-/

namespace DegreeProgress

def Statistics.progressText (s : Statistics Float) : String :=
  s!"{AmountLayout.text.write s.display}/{AmountLayout.text.write s.required}"

def ReportEntry.line (e : ReportEntry Float) : String :=
  let mark := if e.fulfillment.safe.isFulfilled then "x" else " "
  let safe := e.fulfillment.safe.progressText
  let dangerous := e.fulfillment.dangerous.progressText
  s!"  [{mark}] {e.requirement.name}  safe {safe}  dangerous {dangerous}"

def ReportGroup.lines (g : ReportGroup Float) : List String :=
  s!"{g.kind.name} {g.code}" :: g.entries.map ReportEntry.line

def Report.lines (r : Report Float) : List String :=
  r.groups.flatMap ReportGroup.lines ++
    if r.doubleCounted.isEmpty then []
    else ["double counted: " ++ ", ".intercalate (r.doubleCounted.toList.map UniqueId.label)]

namespace Catalog

/-- what the programs of a kind are called together -/
def kindLabel : ProgramKind → String
  | .college => "colleges"
  | .major => "majors"
  | .minor => "minors"
  | .grad => "grad"

def kindLine (c : Catalog) (kind : ProgramKind) : String :=
  let programs := (c.programs kind).values
  let requirements := (programs.flatMap (·.requirements)).length
  s!"{kindLabel kind}: {programs.length} programs, {requirements} requirements"

def lines (c : Catalog) : List String :=
  s!"university: {c.university.length} requirements" :: kinds.map c.kindLine ++
    [s!"catalog ok: {c.requirements.length} requirements"]

end Catalog

end DegreeProgress
