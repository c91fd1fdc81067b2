import GhostBridge.Ecma.HexNumbers
import GhostBridge.Ranges.Merging
import GhostBridge.UnicodeData.CompleteProperty
import Mathlib.Data.Set.Card
import Mathlib.Order.Interval.Finset.Nat

/-!
# The file UnicodeData.txt

A line of the file is the record of a code point.
-/

namespace GhostBridge.UnicodeData

open Ecma Ranges

namespace UnicodeDataFile

/-- `[0-9A-F]{4,6}`. -/
def isCodePointText (text : Text) : Bool :=
  4 ≤ text.length && text.length ≤ 6 &&
    text.all fun u => isDigit u || (0x41 ≤ u && u ≤ 0x46)

/-- The code points of a range, `/^[0-9A-F]{4,6}(?:\.\.[0-9A-F]{4,6})?$/u` by its parts. -/
def parseCodePointRange (value label : Text) : Except Text (ℕ × ℕ) := do
  let parts := Text.splitAround (ascii "..") value.trimmed
  throwWhen (2 < parts.length || !parts.all isCodePointText)
    (ascii "Malformed " ++ label ++ ascii ": " ++ value)
  let start := parseHex (parts[0]?.getD [])
  let last := parseHex (parts[1]?.getD (parts[0]?.getD []))
  throwWhen (last < start || maxCodePoint < last)
    (ascii "Out-of-order or out-of-range " ++ label ++ ascii ": " ++ value)
  return (start, last)

def generalCategories : List Text :=
  ["Lu", "Ll", "Lt", "Lm", "Lo", "Mn", "Mc", "Me", "Nd", "Nl", "No", "Pc", "Pd", "Ps", "Pe", "Pi",
    "Pf", "Po", "Sm", "Sc", "Sk", "So", "Zs", "Zl", "Zp", "Cc", "Cf", "Cs", "Co", "Cn"].map ascii

def markGeneralCategories : List Text := ["Mn", "Mc", "Me"].map ascii

/-- `/^(?:0|[1-9][0-9]{0,2})$/u`. -/
def isClassText (text : Text) : Bool :=
  text == [0x30] ||
    (1 ≤ text.length && text.length ≤ 3 && text.all isDigit && text.head? != some 0x30)

structure DataRecord where
  codePoint : ℕ
  name : Text
  generalCategory : Text
  ccc : ℕ
  decomposition : Text
deriving DecidableEq

namespace DataRecord

def isFirst (record : DataRecord) : Bool := (ascii ", First>").isSuffixOf record.name

def isLast (record : DataRecord) : Bool := (ascii ", Last>").isSuffixOf record.name

def isMark (record : DataRecord) : Bool := markGeneralCategories.contains record.generalCategory

end DataRecord

/-- `UnicodeData.txt:` and the number of a line. -/
def linePlace (lineNumber : ℕ) : Text := ascii "UnicodeData.txt:" ++ decimalDigits lineNumber

def field (fields : List Text) (index : ℕ) : Text := fields[index]?.getD []

def readRecord (previousCodePoint : Option ℕ) (lineNumber : ℕ) (line : Text) :
    Except Text DataRecord := do
  let fields := line.splitOn 0x3b
  throwWhen (fields.length != 15) (linePlace lineNumber ++ ascii " must contain exactly 15 fields")
  let (codePoint, _) ←
    parseCodePointRange (field fields 0) (linePlace lineNumber ++ ascii " code point")
  throwWhen (previousCodePoint.any (codePoint ≤ ·))
    (linePlace lineNumber ++ ascii " is not strictly ordered")
  throwWhen (!generalCategories.contains (field fields 2))
    (linePlace lineNumber ++ ascii " unknown General_Category: " ++ field fields 2)
  throwWhen (!isClassText (field fields 3))
    (linePlace lineNumber ++ ascii " invalid combining class")
  let ccc := digitsValue (field fields 3)
  throwWhen (254 < ccc) (linePlace lineNumber ++ ascii " combining class exceeds 254")
  return ⟨codePoint, field fields 1, field fields 2, ccc, field fields 5⟩

structure PendingRange where
  start : ℕ
  name : Text
  generalCategory : Text
  ccc : ℕ
  decomposition : Text
  lineNumber : ℕ
deriving DecidableEq

structure Parser where
  combining : List (Span ℕ)
  generalCategoryMarks : List (Span Unit)
  decompositions : List (ℕ × List ℕ)
  assignedCodePoints : ℕ
  previousCodePoint : Option ℕ
  pendingRange : Option PendingRange
deriving DecidableEq

def Parser.start : Parser := ⟨[], [], [], 0, none, none⟩

/-- `if (ccc !== 0) combining.push(..)`. -/
def pushClass (combining : List (Span ℕ)) (span : Span ℕ) : List (Span ℕ) :=
  if span.value = 0 then combining else combining ++ [span]

/-- `if (MARK_GENERAL_CATEGORY_SET.has(generalCategory)) generalCategoryMarks.push(..)`. -/
def pushMark (marks : List (Span Unit)) (record : DataRecord) (start : ℕ) : List (Span Unit) :=
  if record.isMark then marks ++ [⟨start, record.codePoint, ()⟩] else marks

def canonicalMapping (record : DataRecord) (lineNumber : ℕ) : Except Text (Option (List ℕ)) :=
  if record.decomposition = [] ∨ record.decomposition.head? = some 0x3c then .ok none
  else do
    let mapping ← (record.decomposition.splitOn 0x20).mapM fun token =>
      Prod.fst <$> parseCodePointRange token (linePlace lineNumber ++ ascii " decomposition")
    throwWhen mapping.isEmpty (linePlace lineNumber ++ ascii " empty canonical decomposition")
    return some mapping

namespace Parser

def acceptFirst (parser : Parser) (record : DataRecord) (lineNumber : ℕ) : Except Text Parser := do
  throwWhen parser.pendingRange.isSome (linePlace lineNumber ++ ascii " nested First range")
  return { parser with
    previousCodePoint := some record.codePoint
    pendingRange := some
      { start := record.codePoint
        name := record.name.take (record.name.length - 8)
        generalCategory := record.generalCategory
        ccc := record.ccc
        decomposition := record.decomposition
        lineNumber } }

def acceptLast (parser : Parser) (record : DataRecord) (lineNumber : ℕ) : Except Text Parser := do
  let pending ← orThrow (linePlace lineNumber ++ ascii " unmatched Last range")
    (parser.pendingRange.filter fun pending =>
      pending.name == record.name.take (record.name.length - 7))
  throwWhen (pending.generalCategory != record.generalCategory || pending.ccc != record.ccc ||
      pending.decomposition != record.decomposition)
    (linePlace lineNumber ++ ascii " range endpoint property mismatch")
  throwWhen (record.decomposition != [])
    (linePlace lineNumber ++ ascii " range decomposition is unsupported")
  return { parser with
    combining := pushClass parser.combining ⟨pending.start, record.codePoint, record.ccc⟩
    generalCategoryMarks := pushMark parser.generalCategoryMarks record pending.start
    assignedCodePoints := parser.assignedCodePoints + (record.codePoint - pending.start + 1)
    previousCodePoint := some record.codePoint
    pendingRange := none }

def acceptSingle (parser : Parser) (record : DataRecord) (lineNumber : ℕ) : Except Text Parser := do
  throwWhen parser.pendingRange.isSome (linePlace lineNumber ++ ascii " missing Last range endpoint")
  let mapping ← canonicalMapping record lineNumber
  return { parser with
    combining := pushClass parser.combining ⟨record.codePoint, record.codePoint, record.ccc⟩
    generalCategoryMarks := pushMark parser.generalCategoryMarks record record.codePoint
    decompositions := parser.decompositions ++ (mapping.map (record.codePoint, ·)).toList
    assignedCodePoints := parser.assignedCodePoints + 1
    previousCodePoint := some record.codePoint }

def accept (parser : Parser) (record : DataRecord) (lineNumber : ℕ) : Except Text Parser :=
  if record.isFirst then parser.acceptFirst record lineNumber
  else if record.isLast then parser.acceptLast record lineNumber
  else parser.acceptSingle record lineNumber

/-- `line.endsWith('\r') ? line.slice(0, -1) : line`. -/
def withoutReturn (line : Text) : Text :=
  if line.getLast? = some 0x0d then line.dropLast else line

def readLines (parser : Parser) : ℕ → List Text → Except Text Parser
  | _, [] => .ok parser
  | lineNumber, line :: rest =>
    if withoutReturn line = [] then readLines parser (lineNumber + 1) rest
    else do
      let record ← readRecord parser.previousCodePoint lineNumber (withoutReturn line)
      let parser ← parser.accept record lineNumber
      readLines parser (lineNumber + 1) rest

end Parser

def mergeRanges {α : Type} [DecidableEq α] (ranges : List (Span α)) (label : String) :
    Except Text (List (Span α)) :=
  mergeSpans (ascii label ++ ascii " ranges overlap") ranges

structure UnicodeDataTables where
  assignedCodePoints : ℕ
  canonicalCombiningClassRanges : List (Span ℕ)
  generalCategoryMarkRanges : List (Span Unit)
  canonicalDecompositions : List (ℕ × List ℕ)
deriving DecidableEq

def parseUnicodeData (text : Text) : Except Text UnicodeDataTables := do
  throwWhen (text == []) (ascii "UnicodeData.txt must be nonempty text")
  let parser ← Parser.start.readLines 1 (text.splitOn 0x0a)
  stepWhen parser.pendingRange.isSome
    (.error (linePlace (parser.pendingRange.elim 0 PendingRange.lineNumber) ++
      ascii " has no Last endpoint"))
  throwWhen parser.decompositions.isEmpty
    (ascii "UnicodeData.txt has no canonical decompositions")
  let canonicalCombiningClassRanges ← mergeRanges parser.combining "Canonical_Combining_Class"
  let generalCategoryMarkRanges ← mergeRanges parser.generalCategoryMarks "General_Category Mark"
  return ⟨parser.assignedCodePoints, canonicalCombiningClassRanges, generalCategoryMarkRanges,
    parser.decompositions⟩

def lineRecord (line : Text) : Option DataRecord :=
  if Parser.withoutReturn line = [] then none
  else (readRecord none 0 (Parser.withoutReturn line)).toOption

def fileRecords (text : Text) : List DataRecord := (text.splitOn 0x0a).filterMap lineRecord

def DataRecord.IsSingle (record : DataRecord) : Prop :=
  record.isFirst = false ∧ record.isLast = false

/-- The class of the code point's own record, or of the pair of records around it. -/
def HasClass (records : List DataRecord) (codePoint ccc : ℕ) : Prop :=
  (∃ record ∈ records, record.IsSingle ∧ record.codePoint = codePoint ∧ record.ccc = ccc) ∨
    ∃ first last, [first, last] <:+: records ∧ first.isFirst = true ∧ last.isLast = true ∧
      first.codePoint ≤ codePoint ∧ codePoint ≤ last.codePoint ∧ first.ccc = ccc ∧ last.ccc = ccc

def recordSpans : Option DataRecord → List DataRecord → List (Span ℕ)
  | _, [] => []
  | none, record :: rest =>
    if record.isFirst then recordSpans (some record) rest
    else ⟨record.codePoint, record.codePoint, record.ccc⟩ :: recordSpans none rest
  | some first, record :: rest =>
    ⟨first.codePoint, record.codePoint, record.ccc⟩ :: recordSpans none rest

/-- Every first record is followed by a last one of its class, and no last one stands alone. -/
def WellPaired : Option DataRecord → List DataRecord → Prop
  | none, [] => True
  | some _, [] => False
  | none, record :: rest =>
    if record.isFirst then WellPaired (some record) rest
    else record.isLast = false ∧ WellPaired none rest
  | some first, record :: rest =>
    record.isFirst = false ∧ record.isLast = true ∧ first.ccc = record.ccc ∧ WellPaired none rest

def OrderedFrom : ℕ → List DataRecord → Prop
  | _, [] => True
  | low, record :: rest =>
    low ≤ record.codePoint ∧ record.codePoint ≤ maxCodePoint ∧
      OrderedFrom (record.codePoint + 1) rest

theorem hasClass_cons_single {record : DataRecord} (h : record.IsSingle) (rest : List DataRecord)
    (codePoint ccc : ℕ) :
    HasClass (record :: rest) codePoint ccc ↔
      (record.codePoint = codePoint ∧ record.ccc = ccc) ∨ HasClass rest codePoint ccc := by
  have hpair {first last : DataRecord} (hfirst : first.isFirst = true) :
      [first, last] <:+: record :: rest ↔ [first, last] <:+: rest := by
    rw [List.infix_cons_iff, List.cons_prefix_cons]
    constructor
    · intro hinfix
      rcases hinfix with ⟨rfl, -⟩ | hinfix
      · rw [h.1] at hfirst
        cases hfirst
      · exact hinfix
    · exact Or.inr
  unfold HasClass
  rw [List.exists_mem_cons_iff]
  constructor
  · intro hclass
    rcases hclass with (⟨-, hrecord⟩ | hother) | ⟨first, last, hinfix, hfirst, hrest⟩
    · exact .inl hrecord
    · exact .inr (.inl hother)
    · exact .inr (.inr ⟨first, last, (hpair hfirst).mp hinfix, hfirst, hrest⟩)
  · intro hclass
    rcases hclass with hrecord | hother | ⟨first, last, hinfix, hfirst, hrest⟩
    · exact .inl (.inl ⟨h, hrecord⟩)
    · exact .inl (.inr hother)
    · exact .inr ⟨first, last, (hpair hfirst).mpr hinfix, hfirst, hrest⟩

theorem hasClass_cons_pair {first last : DataRecord} (hfirst : first.isFirst = true)
    (hnot : last.isFirst = false) (hlast : last.isLast = true) (hccc : first.ccc = last.ccc)
    (rest : List DataRecord) (codePoint ccc : ℕ) :
    HasClass (first :: last :: rest) codePoint ccc ↔
      (first.codePoint ≤ codePoint ∧ codePoint ≤ last.codePoint ∧ last.ccc = ccc) ∨
        HasClass rest codePoint ccc := by
  have hpair {other final : DataRecord} (hother : other.isFirst = true) :
      [other, final] <:+: first :: last :: rest ↔
        (other = first ∧ final = last) ∨ [other, final] <:+: rest := by
    rw [List.infix_cons_iff, List.infix_cons_iff, List.cons_prefix_cons, List.cons_prefix_cons,
      List.cons_prefix_cons]
    constructor
    · intro hinfix
      rcases hinfix with ⟨rfl, rfl, -⟩ | ⟨rfl, -⟩ | hinfix
      · exact .inl ⟨rfl, rfl⟩
      · rw [hnot] at hother
        cases hother
      · exact .inr hinfix
    · intro hinfix
      rcases hinfix with ⟨rfl, rfl⟩ | hinfix
      · exact .inl ⟨rfl, rfl, List.nil_prefix⟩
      · exact .inr (.inr hinfix)
  unfold HasClass
  rw [List.exists_mem_cons_iff, List.exists_mem_cons_iff]
  constructor
  · intro hclass
    rcases hclass with (⟨hsingle, -⟩ | ⟨hsingle, -⟩ | hother) | ⟨other, final, hinfix, hother, hrest⟩
    · cases hfirst.symm.trans hsingle.1
    · cases hlast.symm.trans hsingle.2
    · exact .inr (.inl hother)
    · rcases (hpair hother).mp hinfix with ⟨rfl, rfl⟩ | hinfix
      · exact .inl ⟨hrest.2.1, hrest.2.2.1, hrest.2.2.2.2⟩
      · exact .inr (.inr ⟨other, final, hinfix, hother, hrest⟩)
  · intro hclass
    rcases hclass with ⟨hle, hge, hvalue⟩ | hother | ⟨other, final, hinfix, hother, hrest⟩
    · exact .inr ⟨first, last, (hpair hfirst).mpr (.inl ⟨rfl, rfl⟩), hfirst, hlast, hle, hge,
        hccc.trans hvalue, hvalue⟩
    · exact .inl (.inr (.inr hother))
    · exact .inr ⟨other, final, (hpair hother).mpr (.inr hinfix), hother, hrest⟩

theorem gives_recordSpans (records : List DataRecord) (codePoint ccc : ℕ) :
    (WellPaired none records →
      (Gives (recordSpans none records) codePoint ccc ↔ HasClass records codePoint ccc)) ∧
    ∀ first, first.isFirst = true → WellPaired (some first) records →
      (Gives (recordSpans (some first) records) codePoint ccc ↔
        HasClass (first :: records) codePoint ccc) := by
  induction records with
  | nil =>
    constructor
    · intro hpaired
      simp [recordSpans, HasClass]
    · intro first hfirst hpaired
      cases hpaired
  | cons record rest ih =>
    constructor
    · intro hpaired
      rw [WellPaired] at hpaired
      rw [recordSpans]
      by_cases hfirst : record.isFirst = true
      · rw [if_pos hfirst] at hpaired ⊢
        exact ih.2 record hfirst hpaired
      · rw [if_neg hfirst] at hpaired ⊢
        rw [hasClass_cons_single ⟨by simpa using hfirst, hpaired.1⟩, gives_cons, ih.1 hpaired.2]
        simp only [Span.Contains]
        have hsame : (record.codePoint ≤ codePoint ∧ codePoint ≤ record.codePoint) ↔
            record.codePoint = codePoint := by omega
        rw [hsame]
    · intro first hfirst hpaired
      obtain ⟨hnot, hlast, hccc, hpaired⟩ := hpaired
      rw [recordSpans, hasClass_cons_pair hfirst hnot hlast hccc, gives_cons, ih.1 hpaired]
      simp only [Span.Contains, and_assoc]

theorem recordSpans_ordered {low : ℕ} {pending : Option DataRecord} {records : List DataRecord}
    (h : OrderedFrom low records) (hpending : ∀ first ∈ pending, first.codePoint < low) :
    (recordSpans pending records).Pairwise (fun left right => left.last < right.start) ∧
      ∀ span ∈ recordSpans pending records,
        (pending.map DataRecord.codePoint).getD low ≤ span.start ∧ span.start ≤ span.last ∧
          span.last ≤ maxCodePoint := by
  induction records generalizing low pending with
  | nil => cases pending <;> simp [recordSpans]
  | cons record rest ih =>
    obtain ⟨hlow, hmax, hrest⟩ := h
    have hnone := @ih (record.codePoint + 1) none hrest (by simp)
    cases pending with
    | none =>
      rw [recordSpans]
      by_cases hfirst : record.isFirst = true
      · rw [if_pos hfirst]
        obtain ⟨hpairwise, hspans⟩ := @ih (record.codePoint + 1) (some record) hrest (by simp)
        refine ⟨hpairwise, ?_⟩
        intro span hmem
        have hspan := hspans span hmem
        simp only [Option.map_some, Option.getD_some, Option.map_none, Option.getD_none] at hspan ⊢
        omega
      · rw [if_neg hfirst]
        simp only [Option.map_none, Option.getD_none] at hnone ⊢
        refine ⟨List.pairwise_cons.mpr ⟨?_, hnone.1⟩, List.forall_mem_cons.mpr ⟨?_, ?_⟩⟩
        · intro span hmem
          have hspan := hnone.2 span hmem
          simp only
          omega
        · simp only
          omega
        · intro span hmem
          have hspan := hnone.2 span hmem
          omega
    | some first =>
      have hbelow := hpending first rfl
      simp only [recordSpans, Option.map_some, Option.getD_some]
      simp only [Option.map_none, Option.getD_none] at hnone
      refine ⟨List.pairwise_cons.mpr ⟨?_, hnone.1⟩, List.forall_mem_cons.mpr ⟨?_, ?_⟩⟩
      · intro span hmem
        have hspan := hnone.2 span hmem
        simp only
        omega
      · simp only
        omega
      · intro span hmem
        have hspan := hnone.2 span hmem
        omega

theorem parseCodePointRange_ok {value label : Text} {range : ℕ × ℕ}
    (h : parseCodePointRange value label = .ok range) (other : Text) :
    parseCodePointRange value other = .ok range ∧ range.1 ≤ maxCodePoint := by
  simp only [parseCodePointRange, bind_ok, throwWhen_ok, exists_unit, pure_ok] at h ⊢
  obtain ⟨hparts, hbounds, rfl⟩ := h
  refine ⟨⟨hparts, hbounds, rfl⟩, ?_⟩
  simp only [Bool.or_eq_false_iff, decide_eq_false_iff_not, Nat.not_lt] at hbounds
  exact hbounds.1.trans hbounds.2

theorem readRecord_ok {previousCodePoint : Option ℕ} {lineNumber : ℕ} {line : Text}
    {record : DataRecord} (h : readRecord previousCodePoint lineNumber line = .ok record) :
    readRecord none 0 line = .ok record ∧ (∀ previous ∈ previousCodePoint,
      previous < record.codePoint) ∧ record.codePoint ≤ maxCodePoint := by
  simp only [readRecord, bind_ok, throwWhen_ok, exists_unit, pure_ok, Prod.exists] at h ⊢
  obtain ⟨hfields, codePoint, last, hrange, hordered, hcategory, hclass, hlarge, rfl⟩ := h
  obtain ⟨hother, hmax⟩ := parseCodePointRange_ok hrange (linePlace 0 ++ ascii " code point")
  refine ⟨⟨hfields, codePoint, last, hother, rfl, hcategory, hclass, hlarge, rfl⟩, ?_, hmax⟩
  intro previous hprevious
  simpa [Option.mem_def.mp hprevious] using hordered

def addedSpans : Option DataRecord → DataRecord → List (Span ℕ)
  | none, record =>
    if record.isFirst then [] else [⟨record.codePoint, record.codePoint, record.ccc⟩]
  | some first, record => [⟨first.codePoint, record.codePoint, record.ccc⟩]

def pendingAfter : Option DataRecord → DataRecord → Option DataRecord
  | none, record => if record.isFirst then some record else none
  | some _, _ => none

theorem recordSpans_cons (pending : Option DataRecord) (record : DataRecord)
    (rest : List DataRecord) :
    recordSpans pending (record :: rest) =
      addedSpans pending record ++ recordSpans (pendingAfter pending record) rest := by
  cases pending with
  | none =>
    rw [recordSpans, addedSpans, pendingAfter]
    split <;> rfl
  | some first => rfl

def sizeOf (spans : List (Span ℕ)) : ℕ := (spans.map fun span => span.last - span.start + 1).sum

def classesOf (spans : List (Span ℕ)) : List (Span ℕ) := spans.filter fun span => span.value != 0

theorem pushClass_eq (combining : List (Span ℕ)) (span : Span ℕ) :
    pushClass combining span = combining ++ classesOf [span] := by
  unfold pushClass classesOf
  by_cases h : span.value = 0 <;> simp [h]

structure Parser.Pends (parser : Parser) (pending : Option DataRecord) : Prop where
  start : parser.pendingRange.map PendingRange.start = pending.map DataRecord.codePoint
  ccc : parser.pendingRange.map PendingRange.ccc = pending.map DataRecord.ccc
  isFirst : ∀ first ∈ pending, first.isFirst = true

namespace Parser

theorem Pends.isSome {parser : Parser} {pending : Option DataRecord} (h : parser.Pends pending) :
    parser.pendingRange.isSome = pending.isSome := by
  have := congrArg Option.isSome h.start
  simpa using this

structure Adds (parser later : Parser) (pending : Option DataRecord) (record : DataRecord) :
    Prop where
  previousCodePoint : later.previousCodePoint = some record.codePoint
  pends : later.Pends (pendingAfter pending record)
  combining : later.combining = parser.combining ++ classesOf (addedSpans pending record)
  assigned : later.assignedCodePoints =
    parser.assignedCodePoints + sizeOf (addedSpans pending record)
  paired : ∀ rest, WellPaired (pendingAfter pending record) rest → WellPaired pending (record :: rest)

theorem adds_first {parser later : Parser} {pending : Option DataRecord} {record : DataRecord}
    {lineNumber : ℕ} (hpends : parser.Pends pending) (hfirst : record.isFirst = true)
    (h : parser.acceptFirst record lineNumber = .ok later) : parser.Adds later pending record := by
  simp only [acceptFirst, bind_ok, throwWhen_ok, exists_unit, pure_ok] at h
  obtain ⟨hnone, rfl⟩ := h
  rw [hpends.isSome, Option.isSome_eq_false_iff, Option.isNone_iff_eq_none] at hnone
  subst hnone
  refine ⟨rfl, ⟨?_, ?_, ?_⟩, ?_, ?_, ?_⟩
  · simp [pendingAfter, hfirst]
  · simp [pendingAfter, hfirst]
  · simp [pendingAfter, hfirst]
  · simp [addedSpans, hfirst, classesOf]
  · simp [addedSpans, hfirst, sizeOf]
  · intro rest hrest
    simpa [WellPaired, hfirst, pendingAfter] using hrest

theorem adds_last {parser later : Parser} {pending : Option DataRecord} {record : DataRecord}
    {lineNumber : ℕ} (hpends : parser.Pends pending) (hfirst : record.isFirst = false)
    (hlast : record.isLast = true) (h : parser.acceptLast record lineNumber = .ok later) :
    parser.Adds later pending record := by
  simp only [acceptLast, bind_ok, throwWhen_ok, orThrow_ok, exists_unit, pure_ok,
    Option.filter_eq_some_iff] at h
  obtain ⟨range, ⟨hrange, -⟩, hsame, -, rfl⟩ := h
  simp only [Bool.or_eq_false_iff, bne_eq_false_iff_eq] at hsame
  have hstart := hpends.start
  have hccc := hpends.ccc
  rw [hrange] at hstart hccc
  cases pending with
  | none => cases hstart
  | some first =>
    simp only [Option.map_some, Option.some.injEq] at hstart hccc
    refine ⟨rfl, ⟨rfl, rfl, by simp [pendingAfter]⟩, ?_, ?_, ?_⟩
    · rw [addedSpans, ← hstart]
      exact pushClass_eq _ _
    · simp [addedSpans, sizeOf, ← hstart]
    · intro rest hrest
      exact ⟨hfirst, hlast, hccc.symm.trans hsame.1.2, hrest⟩

theorem adds_single {parser later : Parser} {pending : Option DataRecord} {record : DataRecord}
    {lineNumber : ℕ} (hpends : parser.Pends pending) (hfirst : record.isFirst = false)
    (hlast : record.isLast = false) (h : parser.acceptSingle record lineNumber = .ok later) :
    parser.Adds later pending record := by
  simp only [acceptSingle, bind_ok, throwWhen_ok, exists_unit, pure_ok] at h
  obtain ⟨hnone, mapping, -, rfl⟩ := h
  have hrange := hnone
  rw [hpends.isSome, Option.isSome_eq_false_iff, Option.isNone_iff_eq_none] at hnone
  subst hnone
  refine ⟨rfl, ⟨?_, ?_, ?_⟩, ?_, ?_, ?_⟩
  · simpa [pendingAfter, hfirst] using hrange
  · simpa [pendingAfter, hfirst] using hrange
  · simp [pendingAfter, hfirst]
  · simp only [addedSpans, hfirst]
    exact pushClass_eq _ _
  · simp [addedSpans, hfirst, sizeOf]
  · intro rest hrest
    simpa [WellPaired, hfirst, hlast, pendingAfter] using hrest

theorem accept_adds {parser later : Parser} {pending : Option DataRecord} {record : DataRecord}
    {lineNumber : ℕ} (hpends : parser.Pends pending)
    (h : parser.accept record lineNumber = .ok later) : parser.Adds later pending record := by
  unfold accept at h
  by_cases hfirst : record.isFirst = true
  · rw [if_pos hfirst] at h
    exact adds_first hpends hfirst h
  · rw [if_neg hfirst] at h
    rw [Bool.not_eq_true] at hfirst
    by_cases hlast : record.isLast = true
    · rw [if_pos hlast] at h
      exact adds_last hpends hfirst hlast h
    · rw [if_neg hlast] at h
      rw [Bool.not_eq_true] at hlast
      exact adds_single hpends hfirst hlast h

def low (parser : Parser) : ℕ := parser.previousCodePoint.elim 0 (· + 1)

/-- What the lines add, if no range is pending behind them. -/
structure Reads (parser later : Parser) (pending : Option DataRecord) (lines : List Text) : Prop where
  ordered : OrderedFrom parser.low (lines.filterMap lineRecord)
  combining : later.combining =
    parser.combining ++ classesOf (recordSpans pending (lines.filterMap lineRecord))
  assigned : later.assignedCodePoints =
    parser.assignedCodePoints + sizeOf (recordSpans pending (lines.filterMap lineRecord))
  paired : later.pendingRange = none → WellPaired pending (lines.filterMap lineRecord)

theorem readLines_reads {parser later : Parser} {pending : Option DataRecord} {lineNumber : ℕ}
    {lines : List Text} (hpends : parser.Pends pending)
    (h : parser.readLines lineNumber lines = .ok later) : parser.Reads later pending lines := by
  induction lines generalizing parser pending lineNumber with
  | nil =>
    cases h
    have hnil : recordSpans pending [] = [] := by cases pending <;> rfl
    refine ⟨trivial, ?_, ?_, ?_⟩
    · simp [hnil, classesOf]
    · simp [hnil, sizeOf]
    · intro hnone
      have hstart := hpends.start
      rw [hnone] at hstart
      cases pending with
      | none => trivial
      | some first => cases hstart
  | cons line rest ih =>
    rw [readLines] at h
    by_cases hempty : withoutReturn line = []
    · rw [if_pos hempty] at h
      have hskip : (line :: rest).filterMap lineRecord = rest.filterMap lineRecord := by
        simp [lineRecord, hempty]
      have hreads := ih hpends h
      exact ⟨hskip ▸ hreads.ordered, hskip ▸ hreads.combining, hskip ▸ hreads.assigned,
        hskip ▸ hreads.paired⟩
    · rw [if_neg hempty] at h
      simp only [bind_ok] at h
      obtain ⟨record, hrecord, next, hnext, hrest⟩ := h
      obtain ⟨halone, hprevious, hmax⟩ := readRecord_ok hrecord
      have hadds := accept_adds hpends hnext
      have hreads := ih hadds.pends hrest
      have hhead : (line :: rest).filterMap lineRecord = record :: rest.filterMap lineRecord := by
        simp [lineRecord, hempty, halone, Except.toOption]
      refine ⟨?_, ?_, ?_, ?_⟩
      · rw [hhead]
        refine ⟨?_, hmax, ?_⟩
        · unfold low
          cases hcase : parser.previousCodePoint with
          | none => exact Nat.zero_le _
          | some previous => exact hprevious previous hcase
        · have hordered := hreads.ordered
          rw [low, hadds.previousCodePoint] at hordered
          exact hordered
      · rw [hhead, recordSpans_cons, hreads.combining, hadds.combining]
        simp [classesOf]
      · rw [hhead, recordSpans_cons, hreads.assigned, hadds.assigned]
        simp [sizeOf, add_assoc]
      · intro hnone
        rw [hhead]
        exact hadds.paired _ (hreads.paired hnone)

end Parser

theorem card_covered {spans : List (Span ℕ)}
    (hdisjoint : spans.Pairwise fun left right => left.last < right.start)
    (hspans : ∀ span ∈ spans, span.start ≤ span.last ∧ span.last ≤ maxCodePoint) :
    ((Finset.range codePointCount).filter fun codePoint =>
      ∃ span ∈ spans, span.Contains codePoint).card = sizeOf spans := by
  induction spans with
  | nil => simp [sizeOf]
  | cons span rest ih =>
    obtain ⟨hbehind, hdisjoint⟩ := List.pairwise_cons.mp hdisjoint
    obtain ⟨⟨hle, hmax⟩, hrest⟩ := List.forall_mem_cons.mp hspans
    have hsplit : ((Finset.range codePointCount).filter fun codePoint =>
        ∃ s ∈ span :: rest, s.Contains codePoint) =
        Finset.Icc span.start span.last ∪ (Finset.range codePointCount).filter fun codePoint =>
          ∃ s ∈ rest, s.Contains codePoint := by
      ext codePoint
      rw [Finset.mem_union, Finset.mem_filter, Finset.mem_filter, Finset.mem_Icc,
        List.exists_mem_cons_iff]
      constructor
      · intro h
        rcases h.2 with hspan | hother
        · exact .inl hspan
        · exact .inr ⟨h.1, hother⟩
      · intro h
        rcases h with hspan | hother
        · refine ⟨Finset.mem_range.mpr ?_, .inl hspan⟩
          rw [codePointCount_eq]
          omega
        · exact ⟨hother.1, .inr hother.2⟩
    have hapart : Disjoint (Finset.Icc span.start span.last)
        ((Finset.range codePointCount).filter fun codePoint =>
          ∃ s ∈ rest, s.Contains codePoint) := by
      apply Finset.disjoint_left.mpr
      intro codePoint hspan hother
      obtain ⟨-, other, hmem, hcontains⟩ := Finset.mem_filter.mp hother
      have hbehind := hbehind other hmem
      have hupper := (Finset.mem_Icc.mp hspan).2
      have hlower := hcontains.1
      omega
    rw [hsplit, Finset.card_union_of_disjoint hapart, ih hdisjoint hrest, Nat.card_Icc, sizeOf,
      sizeOf, List.map_cons, List.sum_cons]
    omega

theorem eq_of_contains {spans : List (Span ℕ)}
    (h : spans.Pairwise fun left right => left.last < right.start) {left right : Span ℕ}
    (hleft : left ∈ spans) (hright : right ∈ spans) {codePoint : ℕ}
    (hcontains : left.Contains codePoint) (hcontains' : right.Contains codePoint) :
    left = right := by
  obtain ⟨i, hi, rfl⟩ := List.mem_iff_getElem.mp hleft
  obtain ⟨j, hj, rfl⟩ := List.mem_iff_getElem.mp hright
  have hbehind := List.pairwise_iff_getElem.mp h
  simp only [Span.Contains] at hcontains hcontains'
  rcases Nat.lt_trichotomy i j with hlt | rfl | hgt
  · have := hbehind i j hi hj hlt
    omega
  · rfl
  · have := hbehind j i hj hi hgt
    omega

theorem gives_classesOf {spans : List (Span ℕ)} {codePoint ccc : ℕ} :
    Gives (classesOf spans) codePoint ccc ↔ ccc ≠ 0 ∧ Gives spans codePoint ccc := by
  simp only [Gives, classesOf, List.mem_filter, bne_iff_ne]
  constructor
  · intro h
    obtain ⟨span, ⟨hmem, hne⟩, hcontains, rfl⟩ := h
    exact ⟨hne, span, hmem, hcontains, rfl⟩
  · intro h
    obtain ⟨hne, span, hmem, hcontains, rfl⟩ := h
    exact ⟨span, ⟨hmem, hne⟩, hcontains, rfl⟩

/-- The combining classes of a file that is parsed are those of its records, in a table of maximal
ranges, and all code points with a record are counted. -/
theorem parse_unicode_data_law (text : Text) (tables : UnicodeDataTables)
    (h : parseUnicodeData text = .ok tables) :
    IsTable tables.canonicalCombiningClassRanges ∧
      (∀ codePoint ccc, Gives tables.canonicalCombiningClassRanges codePoint ccc ↔
        ccc ≠ 0 ∧ HasClass (fileRecords text) codePoint ccc) ∧
      (∀ codePoint ccc other, HasClass (fileRecords text) codePoint ccc →
        HasClass (fileRecords text) codePoint other → ccc = other) ∧
      tables.assignedCodePoints =
        {codePoint | ∃ ccc, HasClass (fileRecords text) codePoint ccc}.ncard := by
  simp only [parseUnicodeData, bind_ok, throwWhen_ok, stepWhen_ok, exists_unit, pure_ok] at h
  obtain ⟨-, parser, hlines, hpending, -, classes, hclasses, marks, -, rfl⟩ := h
  have hpends : Parser.start.Pends none := ⟨rfl, rfl, by simp⟩
  have hreads := Parser.readLines_reads hpends hlines
  have hnone : parser.pendingRange = none := by
    cases hrange : parser.pendingRange with
    | none => rfl
    | some range => simp [hrange] at hpending
  have hpaired : WellPaired none (fileRecords text) := hreads.paired hnone
  have hrecords : OrderedFrom 0 (fileRecords text) := hreads.ordered
  have hbehind : ∀ first ∈ (none : Option DataRecord), first.codePoint < 0 := by simp
  obtain ⟨hdisjoint, hspans⟩ := recordSpans_ordered hrecords hbehind
  have hgives (codePoint ccc : ℕ) :
      Gives (recordSpans none (fileRecords text)) codePoint ccc ↔
        HasClass (fileRecords text) codePoint ccc :=
    (gives_recordSpans (fileRecords text) codePoint ccc).1 hpaired
  have hcombining : parser.combining = classesOf (recordSpans none (fileRecords text)) :=
    hreads.combining.trans (List.nil_append _)
  have hassigned : parser.assignedCodePoints = sizeOf (recordSpans none (fileRecords text)) :=
    hreads.assigned.trans (Nat.zero_add _)
  have hordered : ∀ span ∈ parser.combining, span.start ≤ span.last := by
    intro span hmem
    rw [hcombining] at hmem
    exact (hspans span (List.mem_of_mem_filter hmem)).2.1
  obtain ⟨htable, hmerged⟩ := mergeSpans_ok hordered hclasses
  refine ⟨htable, ?_, ?_, ?_⟩
  · intro codePoint ccc
    rw [hmerged, hcombining, gives_classesOf, hgives]
  · intro codePoint ccc other hclass hother
    obtain ⟨left, hleft, hcontains, rfl⟩ := (hgives codePoint ccc).mpr hclass
    obtain ⟨right, hright, hcontains', rfl⟩ := (hgives codePoint other).mpr hother
    rw [eq_of_contains hdisjoint hleft hright hcontains hcontains']
  · have hset : {codePoint | ∃ ccc, HasClass (fileRecords text) codePoint ccc} =
        ((Finset.range codePointCount).filter fun codePoint =>
          ∃ span ∈ recordSpans none (fileRecords text), span.Contains codePoint : Finset ℕ) := by
      ext codePoint
      simp only [Set.mem_ofPred_eq, ← hgives, Finset.coe_filter, Finset.mem_range, Gives]
      constructor
      · intro hcode
        obtain ⟨-, span, hmem, hcontains, -⟩ := hcode
        have hmax := (hspans span hmem).2.2
        have hupper := hcontains.2
        exact ⟨by rw [codePointCount_eq]; omega, span, hmem, hcontains⟩
      · intro hcode
        obtain ⟨-, span, hmem, hcontains⟩ := hcode
        exact ⟨span.value, span, hmem, hcontains, rfl⟩
    have hbounds : ∀ span ∈ recordSpans none (fileRecords text),
        span.start ≤ span.last ∧ span.last ≤ maxCodePoint := by
      intro span hmem
      exact (hspans span hmem).2
    rw [hset, Set.ncard_coe_finset]
    exact hassigned.trans (card_covered hdisjoint hbounds).symm

private def graveToneMark : Text :=
  ascii "0340;COMBINING GRAVE TONE MARK;Mn;230;NSM;0300;;;;N;;;;;\n"

private def graveTables : UnicodeDataTables where
  assignedCodePoints := 1
  canonicalCombiningClassRanges := [⟨0x340, 0x340, 230⟩]
  generalCategoryMarkRanges := [⟨0x340, 0x340, ()⟩]
  canonicalDecompositions := [(0x340, [0x300])]

theorem parse_unicode_data_law_grave :
    IsTable graveTables.canonicalCombiningClassRanges ∧
      (∀ codePoint ccc, Gives graveTables.canonicalCombiningClassRanges codePoint ccc ↔
        ccc ≠ 0 ∧ HasClass (fileRecords graveToneMark) codePoint ccc) ∧
      (∀ codePoint ccc other, HasClass (fileRecords graveToneMark) codePoint ccc →
        HasClass (fileRecords graveToneMark) codePoint other → ccc = other) ∧
      graveTables.assignedCodePoints =
        {codePoint | ∃ ccc, HasClass (fileRecords graveToneMark) codePoint ccc}.ncard :=
  parse_unicode_data_law graveToneMark graveTables (by decide)

end UnicodeDataFile

end GhostBridge.UnicodeData
