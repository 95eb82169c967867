import CilCapture.Memory.Space
import CilCapture.Text.Numeral

/-!
# Headers of a mapped image

An image starts with the letters `MZ` and, at `0x3C`, the place of its signature; behind the
signature stand the file header, an optional header and the section table. Only these headers, the
span up to the end of the section table, are looked at. What is checked of them is what a section's
copy depends on and what makes an image one: signatures, the optional header with its directories,
and names of sections that refer to a string table.
-/

namespace CilCapture.Image

open Memory

structure Section where
  name : Bytes
  virtualSize : UInt32
  virtualAddress : UInt32
  rawSize : UInt32
  rawPointer : UInt32
  deriving DecidableEq, Repr

structure ImageLayout where
  sizeOfHeaders : Nat
  sections : List Section
  deriving DecidableEq, Repr

def startHeaderSize : Nat := 0x40

/-- Where the place of the signature stands. -/
def signaturePointer : Nat := 0x3C

/-- Bytes of the signature and the file header behind it. -/
def fileHeaderSize : Nat := 24

/-- Bytes of an entry of the section table. -/
def sectionEntrySize : Nat := 40

def longestSpan : Nat := 0x10000

/-- The number of `width` bytes at `offset`, zero bytes where there are none. -/
def field (width offset : Nat) (bytes : Bytes) : Nat :=
  Bytes.toNat ((bytes.drop offset).take width)

/-- Where the parts of the headers lie. -/
structure HeaderSpan where
  /-- The signature. -/
  signature : Nat
  sectionCount : Nat
  optionalSize : Nat
  deriving DecidableEq, Repr

namespace HeaderSpan

def optionalHeader (span : HeaderSpan) : Nat := span.signature + fileHeaderSize

def sectionTable (span : HeaderSpan) : Nat := span.optionalHeader + span.optionalSize

def finish (span : HeaderSpan) : Nat := span.sectionTable + span.sectionCount * sectionEntrySize

/-- Finds the parts of the headers of the image at `base`. -/
def find {W : Type} [AddressSpace W] (base : Address) (world : W) : Except Fault HeaderSpan := do
  let start ← AddressSpace.read base startHeaderSize world
  let signature := field 4 signaturePointer start
  if longestSpan < signature + fileHeaderSize then
    throw (.malformed (.headerOutside signature))
  let headers ← AddressSpace.read base (signature + fileHeaderSize) world
  let span : HeaderSpan := {
    signature
    sectionCount := field 2 (signature + 6) headers
    optionalSize := field 2 (signature + 20) headers }
  if longestSpan < span.finish then throw (.malformed (.tooManySections span.sectionCount))
  return span

end HeaderSpan

/-- Bytes of the optional header before its directories, by its leading number. -/
def optionalFixedSize? (magic : Nat) : Option Nat :=
  if magic = 0x10B then some 96 else if magic = 0x20B then some 112 else none

def mostDirectories : Nat := 16

/-- Whether the optional header and its directories parse; it stands at the front of `bytes`. -/
def optionalHeaderParses (bytes : Bytes) : Bool :=
  2 ≤ bytes.length &&
    match optionalFixedSize? (field 2 0 bytes) with
    | none => false
    | some fixed =>
      let directories := field 4 (fixed - 4) bytes
      directories ≤ mostDirectories && fixed + 8 * directories ≤ bytes.length

/-- Whether headers parse up to the section table. -/
def headersParse (span : HeaderSpan) (headers : Bytes) : Bool :=
  headers.take 2 == [0x4D, 0x5A] && startHeaderSize ≤ span.signature &&
    (headers.drop span.signature).take 4 == [0x50, 0x45, 0, 0] &&
    (span.optionalSize == 0 || optionalHeaderParses (headers.drop span.optionalHeader))

/-- The bytes as characters, up to the first zero. -/
def untilZero (bytes : Bytes) : List Char :=
  (bytes.takeWhile (· ≠ 0)).map fun byte => Char.ofNat byte.toNat

/-- Whether a character is a digit of the base-64 alphabet. -/
def isBase64 (c : Char) : Bool := c.isAlphanum || c == '+' || c == '/'

/-- Whether a section's name is one: a name that starts with a slash refers to a string table, by a
decimal number or, after a second slash, by a base-64 number. -/
def sectionNameParses (name : Bytes) : Bool :=
  match untilZero name with
  | '/' :: '/' :: rest => rest.all isBase64
  | '/' :: rest => (Numeral.read? 10 rest).isSome
  | _ => true

/-- The entry of the section table at the front of `bytes`. -/
def Section.ofEntry (bytes : Bytes) : Section where
  name := bytes.take 8
  virtualSize := UInt32.ofNat (field 4 8 bytes)
  virtualAddress := UInt32.ofNat (field 4 12 bytes)
  rawSize := UInt32.ofNat (field 4 16 bytes)
  rawPointer := UInt32.ofNat (field 4 20 bytes)

/-- The first `count` entries of a section table. -/
def sectionEntries (count : Nat) (table : Bytes) : List Section :=
  (List.range count).map fun index => Section.ofEntry (table.drop (index * sectionEntrySize))

/-- The sections that headers list. -/
def HeaderSpan.sections (span : HeaderSpan) (headers : Bytes) : List Section :=
  sectionEntries span.sectionCount (headers.drop span.sectionTable)

/-- What decides whether headers are accepted. From accepted headers the fields are read as they are
stored. -/
structure HeaderParser where
  /-- Whether headers parse up to the section table. -/
  header : HeaderSpan → Bytes → Bool
  /-- Whether the section table parses. -/
  table : HeaderSpan → Bytes → Bool

/-- The parser that checks signatures, the optional header and the names of sections. -/
def HeaderParser.standard : HeaderParser where
  header := headersParse
  table span headers := (span.sections headers).all (sectionNameParses ·.name)

namespace ImageLayout

/-- Reads the layout of the image at `base`. -/
def read {W : Type} [AddressSpace W] (parser : HeaderParser) (base : Address) (world : W) :
    Except Fault ImageLayout := do
  let span ← HeaderSpan.find base world
  let headers ← AddressSpace.read base span.finish world
  if !parser.header span headers then throw .imageHeader
  if span.optionalSize = 0 then throw (.malformed (.noOptionalHeader base))
  if !parser.table span headers then throw .imageHeader
  return {
    sizeOfHeaders := field 4 (span.optionalHeader + 60) headers
    sections := span.sections headers }

/-- Bytes of the file: the end of the furthest part. -/
def fileSize (layout : ImageLayout) : Nat :=
  (layout.sections.map fun entry => entry.rawPointer.toNat + entry.rawSize.toNat).foldl max
    layout.sizeOfHeaders

end ImageLayout

end CilCapture.Image
