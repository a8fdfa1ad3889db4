import FlowObserver.Bytes

/-!
# ELF objects

An object of 64-bit format, least significant byte first, is a table of sections and a table of
symbols, whose names lie in sections of their own. Whatever a table points at has to lie within the
object.
-/

namespace FlowObserver
namespace Elf

structure ElfSection where
  /-- Nothing if the name lies outside of its table. -/
  name : Option String
  kind : Nat
  flags : Nat
  /-- Nothing if it lies outside of the object. -/
  content : Option Bytes
  link : Nat
  deriving DecidableEq, Repr

structure ElfSymbol where
  name : String
  kind : Nat
  /-- Index of the section that the symbol is defined in; zero for none. -/
  home : Nat
  value : Nat
  size : Nat
  deriving DecidableEq, Repr

structure ElfObject where
  sections : List ElfSection
  symbols : List ElfSymbol
  deriving DecidableEq, Repr

abbrev programBits : Nat := 1
abbrev symbolTable : Nat := 2
abbrev stringTable : Nat := 3
/-- A section without content in the object. -/
abbrev noBits : Nat := 8

abbrev functionSymbol : Nat := 2

def ElfSection.isCode (s : ElfSection) : Bool :=
  s.kind = programBits && s.flags / 2 % 2 = 1 && s.flags / 4 % 2 = 1

/-- Indices from here on name no section. -/
abbrev firstReservedIndex : Nat := 0xFF00

def range? (bytes : Bytes) (start size : Nat) : Option Bytes :=
  if start + size ≤ bytes.length then some (bytes.field start size) else none

def number (bytes : Bytes) (start width : Nat) : Nat := Bytes.ofLittleEndian (bytes.field start width)

/-- Consecutive entries of one size; what is left at the end is no entry. -/
def entries (size : Nat) (bytes : Bytes) : List Bytes :=
  (List.range (bytes.length / size)).map fun i => bytes.field (i * size) size

def textAt? (table : Bytes) (offset : Nat) : Option String :=
  let text := (table.drop offset).takeWhile (· ≠ 0)
  if offset + text.length < table.length then String.fromUTF8? ⟨text.toArray⟩ else none

abbrev headerSize : Nat := 64
abbrev sectionHeaderSize : Nat := 64
abbrev segmentHeaderSize : Nat := 56
abbrev symbolSize : Nat := 24

/-- Four bytes of magic; then 64 bits, least significant byte first, and version 1. -/
def identification : Bytes := [0x7F, 0x45, 0x4C, 0x46, 2, 1, 1]

/-- The bytes of a table, whose entries must have the expected size. An object may lack it. -/
def table? (bytes : Bytes) (start count entrySize expected : Nat) : Option Bytes :=
  if start = 0 || count = 0 then some []
  else if entrySize ≠ expected then none
  else range? bytes start (count * entrySize)

def section? (bytes header : Bytes) : Nat × ElfSection :=
  let kind := number header 4 4
  (number header 0 4, {
    name := none
    kind
    flags := number header 8 8
    content := if kind = noBits then some []
      else range? bytes (number header 24 8) (number header 32 8)
    link := number header 40 4 })

def sections? (bytes : Bytes) : Option (List ElfSection) := do
  let headers ← table? bytes (number bytes 40 8) (number bytes 60 2) (number bytes 58 2)
    sectionHeaderSize
  let found := (entries sectionHeaderSize headers).map (section? bytes)
  if found.isEmpty then return []
  let index := number bytes 62 2
  guard (index ≠ 0)
  let names ← found[index]?
  return found.map fun (offset, s) => { s with name := names.2.content.bind (textAt? · offset) }

def symbol (names entry : Bytes) : ElfSymbol :=
  let home := number entry 6 2
  { name := (textAt? names (number entry 0 4)).getD ""
    kind := number entry 4 1 % 16
    home := if home < firstReservedIndex then home else 0
    value := number entry 8 8
    size := number entry 16 8 }

/-- The symbols of the first symbol table; an object may have none. -/
def symbols? (sections : List ElfSection) : Option (List ElfSymbol) :=
  match sections.find? (·.kind = symbolTable) with
  | none => some []
  | some table => do
    let content ← table.content
    if table.link = 0 then return (entries symbolSize content).map (symbol [])
    let names ← sections[table.link]?
    guard (names.kind = stringTable)
    return (entries symbolSize content).map (symbol (← names.content))

def parse? (bytes : Bytes) : Option ElfObject := do
  guard (headerSize ≤ bytes.length && identification.isPrefixOf bytes)
  let _ ← table? bytes (number bytes 32 8) (number bytes 56 2) (number bytes 54 2)
    segmentHeaderSize
  let sections ← sections? bytes
  return ⟨sections, ← symbols? sections⟩

end Elf
end FlowObserver
