import FlowObserver.Settings.Refusal
import FlowObserver.Time.Human
import FlowObserver.Yaml.Document
import FlowObserver.Yaml.Printer

/-!
# Formats of settings

What settings are written in, read from and laid over each other by: spellings of durations, texts
of documents, and layers. The standard formats are YAML and layers whose mappings are laid over each
other field by field, while anything else replaces what was there. Layers keep fields in the order
of their names.
-/

namespace FlowObserver
namespace Settings

structure Formats where
  duration : Duration.Spelling
  writeDocument : List (String × Json) → String
  readDocument : String → Except String Json
  /-- The layer that the text of a file describes. -/
  readLayer : String → Except String Json
  /-- A document as a layer. -/
  layer : Json → Json
  /-- Lays a layer over those below it. -/
  merge : (below above : Json) → Json

def sorted (fields : List (String × Json)) : List (String × Json) :=
  fields.mergeSort fun a b => a.1 ≤ b.1

mutual

def sortFields : Json → Json
  | .arr items => .arr (sortItems items)
  | .obj fields => .obj (sorted (sortEntries fields))
  | j => j

def sortItems : List Json → List Json
  | [] => []
  | j :: rest => sortFields j :: sortItems rest

def sortEntries : List (String × Json) → List (String × Json)
  | [] => []
  | (name, j) :: rest => (name, sortFields j) :: sortEntries rest

end

mutual

def overlay (below above : Json) : Json :=
  match below, above with
  | .obj fields, .obj others =>
    let added := others.filter fun f => !fields.any (·.1 = f.1)
    .obj (sorted (overlayEntries fields others ++ added))
  | _, above => above

def overlayEntries : List (String × Json) → List (String × Json) → List (String × Json)
  | [], _ => []
  | (name, j) :: rest, others =>
    (name, match others.lookup name with
      | some above => overlay j above
      | none => j) :: overlayEntries rest others

end

def rootText : Json → String
  | .null => "unit value"
  | j => foundText j

/-- The mapping that a text holds; one that holds nothing is an empty mapping. -/
def documentOf (text : String) : Except String Json :=
  match Yaml.parse text with
  | (_, some failure) => .error failure.message
  | ([], none) => .ok (.obj [])
  | ([n], none) =>
    match n with
    | .scalar _ "" true => .ok (.obj [])
    | .mapping _ entries =>
      (Yaml.Node.value Yaml.maxDepth (.mapping none entries)).mapError Yaml.ValueError.message
    | .scalar tag text plain =>
      match Yaml.scalarValue tag text plain with
      | .ok j => .error ("invalid type: " ++ rootText j ++ ", expected a map")
      | .error e => .error e.message
    | .sequence .. => .error "invalid type: sequence, expected a map"
  | _ => .error Yaml.DocumentError.severalDocuments.message

def Formats.standard : Formats where
  duration := .human
  writeDocument := Yaml.document
  readDocument text := (Yaml.value text).mapError Yaml.DocumentError.message
  readLayer text := (documentOf text).map sortFields
  layer := sortFields
  merge := overlay

end Settings
end FlowObserver
