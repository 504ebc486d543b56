import Interlude.Document.Template
import Interlude.Json.Writer
import Interlude.Yaml.Writer
/-!
# Listings

The templates of a registry as a table, or as a document.
-/

namespace Interlude.Cli

/-- Rows of cells in columns, each as wide as its widest cell and two blanks. The last column is as
wide as it is. -/
def table (rows : List (List String)) : String :=
  let columns := (rows.map List.length).foldl max 0
  let width (i : Nat) : Nat := (rows.map fun r => (r[i]?.getD "").length).foldl max 0 + 2
  let cell (i : Nat) (c : String) : String :=
    if i + 1 = columns then c else c ++ "".pushn ' ' (width i - c.length)
  String.join (rows.map fun r => String.join (r.zipIdx.map fun (c, i) => cell i c) ++ "\n")

def delegateCell (d : Option Delegate) : String :=
  let named (s : String) : String := if s.isEmpty then "default" else s
  match d with
  | none => "-"
  | some d => named d.package ++ "/" ++ named d.variant ++ " (" ++ toString d.priority.toInt ++ ")"

/-- The params with their types; an injected one is marked, and one that may be left out. -/
def paramsCell (params : List ParamDecl) : String :=
  let cells := params.map fun p =>
    (if p.injected then "ij." else "") ++ p.name ++ ":" ++ p.type.text ++
      (if p.required then "" else "?")
  if cells.isEmpty then "-" else Text.join ", " cells

/-- How a listing is written. -/
inductive ListingFormat where
  | table
  | json
  | yaml
deriving DecidableEq, Repr, Inhabited

def ListingFormat.ofName (name : String) : ListingFormat :=
  match Text.lowerAscii name with
  | "json" => json
  | "yaml" => yaml
  | _ => table

/-- The templates of a registry. -/
def listing (format : ListingFormat) (r : Registry) : String :=
  let docs := Document.summaries r
  match format with
  | .json => (if docs.isEmpty then Json.null else .arr docs).indented .embedded 0 ++ "\n"
  | .yaml => (Yaml.Block.ofJson (.arr docs)).write
  | .table =>
    if docs.isEmpty then "No templates found.\n"
    else table (["NAME", "KIND", "DELEGATE", "PARAMS", "SOURCE"] :: r.listing.map fun p =>
      [p.name, p.kind.name, delegateCell p.delegate, paramsCell p.params, p.source])

end Interlude.Cli
