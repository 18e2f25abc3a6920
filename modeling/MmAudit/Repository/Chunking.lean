import MmAudit.Library.TextLines
import MmAudit.Repository.Ignore
import Mathlib.Data.List.Sort
import Mathlib.Data.Prod.Lex

/-!
# Chunks of a source file

`chunk_text` cuts the text of a file into excerpts at logical boundaries: Python
nodes, Solidity declarations, or blocks between blank lines.  An excerpt holds whole
lines of the text and their hash.

The Python parser, the Unicode classes of whitespace and word characters, and the hash
are parameters.
-/

namespace MmAudit

namespace Context

open TextLines

/-- A line range; the lines are numbered from one. -/
abbrev LineRange := ℕ × ℕ

/-- A top-level node of a Python module. -/
structure PythonNode where
  isImport : Bool
  lineno : ℕ
  endLineno : ℕ
deriving DecidableEq, Repr

/-- What chunking takes from Python and from Unicode. -/
structure Syntax (Digest : Type) where
  /-- `ast.parse`, or nothing on a syntax error -/
  parsePython : List Char → Option (List PythonNode)
  isSpace : Char → Bool
  isWord : Char → Bool
  sha256 : List UInt8 → Digest
  /-- Nodes lie in the text, and come in the order of their lines. -/
  nodesInText : ∀ content nodes, parsePython content = some nodes →
    (∀ node ∈ nodes, 1 ≤ node.lineno ∧ node.lineno ≤ node.endLineno ∧
      node.endLineno ≤ (splitLines content).length) ∧
    nodes.Pairwise fun node later => node.lineno ≤ later.lineno

structure ContextExcerpt (Digest : Type) where
  path : List Char
  startLine : ℕ
  endLine : ℕ
  contentHash : Digest
  content : List Char
  categories : List String
  omittedBefore : Bool
  omittedAfter : Bool
deriving DecidableEq, Repr

structure ChunkingResult (Digest : Type) where
  excerpts : List (ContextExcerpt Digest)
  omissions : List String
deriving DecidableEq, Repr

/-- The lines of a range, together. -/
def selectLines (lines : List (List Char)) (start stop : ℕ) : List Char :=
  (lines.extract (start - 1) stop).flatten

namespace Syntax

variable {Digest : Type} (source : Syntax Digest)

def hashText (text : List Char) : Digest :=
  source.sha256 (encode text)

def makeExcerpt (path : List Char) (lines : List (List Char)) (start stop : ℕ)
    (categories : List String) (totalLines : ℕ) : ContextExcerpt Digest :=
  let content := selectLines lines start stop
  { path := path
    startLine := start
    endLine := stop
    contentHash := source.hashText content
    content := content
    categories := categories
    omittedBefore := decide (1 < start)
    omittedAfter := decide (stop < totalLines) }

def pythonRanges (content : List Char) : List LineRange :=
  match source.parsePython content with
  | none => []
  | some nodes =>
      let imports := nodes.filter PythonNode.isImport
      let header :=
        match imports.head?, imports.getLast? with
        | some first, some last => [(first.lineno, last.endLineno)]
        | _, _ => []
      header ++ (nodes.filter (!·.isImport)).map fun node => (node.lineno, node.endLineno)

/-- `str.strip` -/
def strip (text : List Char) : List Char :=
  (text.dropWhile source.isSpace).rdropWhile source.isSpace

/-- The loop of `_block_ranges`: `index` is the number of the next line, `start` the first line of
the block that is open. -/
def blockRangesFrom : ℕ → Option ℕ → List (List Char) → List LineRange
  | index, start, [] => (start.map fun first => (first, index - 1)).toList
  | index, start, line :: lines =>
      match source.strip line, start with
      | [], some start => (start, index - 1) :: blockRangesFrom (index + 1) none lines
      | [], none => blockRangesFrom (index + 1) none lines
      | _ :: _, some start => blockRangesFrom (index + 1) (some start) lines
      | _ :: _, none => blockRangesFrom (index + 1) (some index) lines

def blockRanges (content : List Char) : List LineRange :=
  source.blockRangesFrom 1 none (splitLines content)

def declarationKeywords : List (List Char) :=
  ["contract", "interface", "library", "function", "modifier", "constructor", "fallback",
    "receive"].map String.toList

/-- A line that begins with a declaration keyword, as a word of its own. -/
def isDeclaration (line : List Char) : Bool :=
  let text := line.dropWhile source.isSpace
  declarationKeywords.any fun keyword =>
    keyword.isPrefixOf text && !(text.drop keyword.length).head?.any source.isWord

def isHeader (line : List Char) : Bool :=
  let stripped := source.strip line
  ["pragma ", "import ", "// SPDX-"].any (·.toList.isPrefixOf stripped)

/-- The text before a line comment. -/
def stripSolidityComments : List Char → List Char
  | '/' :: '/' :: _ => []
  | char :: rest => char :: stripSolidityComments rest
  | [] => []

/-- The loop of `_brace_range_end` from the line with number `index` on. -/
def braceRangeEndFrom (startLine : ℕ) :
    ℕ → ℤ → Bool → List (List Char) → ℕ
  | _, _, _, [] => startLine
  | index, depth, seenOpen, line :: lines =>
      let stripped := stripSolidityComments line
      let seenOpen := seenOpen || stripped.contains '{'
      let depth := depth + stripped.count '{' - stripped.count '}'
      if seenOpen && decide (depth ≤ 0) then
        index
      else if !seenOpen && (stripped.rdropWhile source.isSpace).getLast? == some ';' then
        index
      else
        braceRangeEndFrom startLine (index + 1) depth seenOpen lines

def braceRangeEnd (lines : List (List Char)) (startLine : ℕ) : ℕ :=
  source.braceRangeEndFrom startLine startLine 0 false (lines.drop (startLine - 1))

/-- The numbers of the lines that pass a test, where the first line has the number `index`. -/
def lineNumbersFrom (test : List Char → Bool) : ℕ → List (List Char) → List ℕ
  | _, [] => []
  | index, line :: lines =>
      if test line then index :: lineNumbersFrom test (index + 1) lines
      else lineNumbersFrom test (index + 1) lines

def solidityRanges (content : List Char) : List LineRange :=
  let lines := splitLines content
  let headers := lineNumbersFrom source.isHeader 1 lines
  let header :=
    match headers.head?, headers.getLast? with
    | some first, some last => [(first, last)]
    | _, _ => []
  let declarations := (lineNumbersFrom source.isDeclaration 1 lines).map fun index =>
    (index, source.braceRangeEnd lines index)
  let ranges := declarations.foldl (fun ranges range =>
    if ranges.contains range then ranges else ranges ++ [range]) header
  ranges.insertionSort fun range other => toLex range ≤ toLex other

/-- The ranges for the suffix of a path. -/
def rangesFor (lower : List Char → List Char) (path content : List Char) : List LineRange :=
  let suffix := lower (Ignore.suffix ((Glob.pathParts path).getLastD []))
  if suffix = ".py".toList then source.pythonRanges content
  else if suffix = ".sol".toList then source.solidityRanges content
  else source.blockRanges content

def exceedsNote (path : List Char) (range : LineRange) : String :=
  String.ofList path ++ ":" ++ toString range.1 ++ "-" ++ toString range.2 ++
    " omitted because the logical construct exceeds chunk limit"

/-- `chunk_text` -/
def chunkText (lower : List Char → List Char) (path content : List Char)
    (categories : List String) (maxChunkBytes : ℕ) : ChunkingResult Digest :=
  let lines := splitLines content
  if lines.isEmpty then
    { excerpts :=
        [{ path := path, startLine := 1, endLine := 1, contentHash := source.sha256 [],
           content := [], categories := categories, omittedBefore := false,
           omittedAfter := false }]
      omissions := [] }
  else if (encode content).length ≤ maxChunkBytes then
    { excerpts := [source.makeExcerpt path lines 1 lines.length categories lines.length]
      omissions := [] }
  else
    let ranges := source.rangesFor lower path content
    let fits := fun range : LineRange =>
      decide ((encode (selectLines lines range.1 range.2)).length ≤ maxChunkBytes)
    let excerpts := (ranges.filter fits).map fun range =>
      source.makeExcerpt path lines range.1 range.2 categories lines.length
    let omissions := (ranges.filter (!fits ·)).map (exceedsNote path)
    { excerpts := excerpts
      omissions :=
        if excerpts.isEmpty && omissions.isEmpty then
          [String.ofList path ++ ": no complete logical block fit the chunk limit"]
        else
          omissions }

/-! ## Excerpts hold lines of their file -/

/-- The range lies in a text of so many lines. -/
def InText (lineCount : ℕ) (range : LineRange) : Prop :=
  1 ≤ range.1 ∧ range.1 ≤ range.2 ∧ range.2 ≤ lineCount

/-- In an ordered list, the first item does not come after the last one. -/
theorem head_le_last {Item : Type} {order : Item → ℕ} {items : List Item}
    (ordered : items.Pairwise fun item later => order item ≤ order later) {first last : Item}
    (isFirst : items.head? = some first) (isLast : items.getLast? = some last) :
    order first ≤ order last := by
  cases items with
  | nil => cases isFirst
  | cons item items =>
      obtain rfl : item = first := Option.some.inj isFirst
      rcases List.mem_cons.mp (List.mem_of_getLast? isLast) with rfl | later
      · exact le_rfl
      · exact (List.pairwise_cons.mp ordered).1 last later

theorem pythonRanges_inText (content : List Char) :
    ∀ range ∈ source.pythonRanges content, InText (splitLines content).length range := by
  intro range member
  unfold pythonRanges at member
  cases parsed : source.parsePython content with
  | none => rw [parsed] at member; cases member
  | some nodes =>
      obtain ⟨bounds, ordered⟩ := source.nodesInText content nodes parsed
      simp only [parsed] at member
      rcases List.mem_append.mp member with header | body
      · split at header
        · next first last isFirst isLast =>
            obtain rfl := List.mem_singleton.mp header
            have firstBounds := bounds first (List.mem_of_mem_filter (List.mem_of_head? isFirst))
            have lastBounds := bounds last (List.mem_of_mem_filter (List.mem_of_getLast? isLast))
            have inOrder := head_le_last (ordered.filter _) isFirst isLast
            exact ⟨firstBounds.1, inOrder.trans lastBounds.2.1, lastBounds.2.2⟩
        · cases header
      · obtain ⟨node, nodeMem, rfl⟩ := List.mem_map.mp body
        exact bounds node (List.mem_of_mem_filter nodeMem)

theorem blockRangesFrom_inText (index : ℕ) (start : Option ℕ) (lines : List (List Char))
    (lineCount : ℕ) (total : index + lines.length = lineCount + 1)
    (opened : ∀ first, start = some first → 1 ≤ first ∧ first < index) (positive : 1 ≤ index) :
    ∀ range ∈ source.blockRangesFrom index start lines, InText lineCount range := by
  induction lines generalizing index start with
  | nil =>
      intro range member
      cases start with
      | none => simp [blockRangesFrom] at member
      | some first =>
          obtain rfl : range = (first, index - 1) := by simpa [blockRangesFrom] using member
          have := opened first rfl
          rw [List.length_nil] at total
          exact ⟨this.1, by omega, by omega⟩
  | cons line lines ih =>
      intro range member
      rw [List.length_cons] at total
      have next := fun start opened => ih (index + 1) start (by omega) opened (by omega)
      unfold blockRangesFrom at member
      cases stripped : source.strip line <;> cases start <;> simp only [stripped] at member
      · exact next none (by simp) range member
      · next first =>
          have bounds := opened first rfl
          rcases List.mem_cons.mp member with rfl | member
          · exact ⟨bounds.1, by omega, by omega⟩
          · exact next none (by simp) range member
      · exact next (some index) (by simp; omega) range member
      · next first =>
          refine next (some first) ?_ range member
          intro other same
          obtain rfl := Option.some.inj same
          have := opened first rfl
          omega

theorem lineNumbersFrom_bounds (test : List Char → Bool) (index : ℕ) (lines : List (List Char)) :
    (∀ number ∈ lineNumbersFrom test index lines,
        index ≤ number ∧ number < index + lines.length) ∧
      (lineNumbersFrom test index lines).Pairwise fun number later => number ≤ later := by
  induction lines generalizing index with
  | nil => simp [lineNumbersFrom]
  | cons line lines ih =>
      obtain ⟨bounds, ordered⟩ := ih (index + 1)
      have weaker : ∀ number ∈ lineNumbersFrom test (index + 1) lines,
          index ≤ number ∧ number < index + (line :: lines).length := by
        intro number member
        have := bounds number member
        rw [List.length_cons]
        omega
      rw [lineNumbersFrom]
      split
      · refine ⟨?_, List.pairwise_cons.mpr ⟨fun number member => (weaker number member).1, ordered⟩⟩
        intro number member
        rcases List.mem_cons.mp member with rfl | member
        · rw [List.length_cons]
          omega
        · exact weaker number member
      · exact ⟨weaker, ordered⟩

theorem braceRangeEndFrom_bounds (startLine index : ℕ) (depth : ℤ) (seenOpen : Bool)
    (lines : List (List Char)) :
    source.braceRangeEndFrom startLine index depth seenOpen lines = startLine ∨
      index ≤ source.braceRangeEndFrom startLine index depth seenOpen lines ∧
        source.braceRangeEndFrom startLine index depth seenOpen lines < index + lines.length := by
  induction lines generalizing index depth seenOpen with
  | nil => exact Or.inl rfl
  | cons line lines ih =>
      rw [braceRangeEndFrom, List.length_cons]
      split
      · exact Or.inr ⟨le_rfl, by omega⟩
      · split
        · exact Or.inr ⟨le_rfl, by omega⟩
        · rcases ih (index + 1) _ _ with same | ⟨after, before⟩
          · exact Or.inl same
          · exact Or.inr ⟨by omega, by omega⟩

theorem solidityRanges_inText (content : List Char) :
    ∀ range ∈ source.solidityRanges content, InText (splitLines content).length range := by
  intro range member
  unfold solidityRanges at member
  rw [List.mem_insertionSort] at member
  have headers := lineNumbersFrom_bounds source.isHeader 1 (splitLines content)
  have declarations := lineNumbersFrom_bounds source.isDeclaration 1 (splitLines content)
  have fold : ∀ (ranges header : List LineRange) (range : LineRange),
      range ∈ ranges.foldl (fun ranges range =>
        if ranges.contains range then ranges else ranges ++ [range]) header →
      range ∈ header ∨ range ∈ ranges := by
    intro ranges
    induction ranges with
    | nil => exact fun header range member => Or.inl member
    | cons first ranges ih =>
        intro header range member
        rcases ih _ range member with before | later
        · dsimp only at before
          split at before
          · exact Or.inl before
          · rcases List.mem_append.mp before with before | isFirst
            · exact Or.inl before
            · exact Or.inr (List.mem_cons.mpr (Or.inl (List.mem_singleton.mp isFirst)))
        · exact Or.inr (List.mem_cons_of_mem _ later)
  rcases fold _ _ range member with header | declaration
  · split at header
    · next first last isFirst isLast =>
        obtain rfl := List.mem_singleton.mp header
        have firstBounds := headers.1 first (List.mem_of_head? isFirst)
        have lastBounds := headers.1 last (List.mem_of_getLast? isLast)
        have inOrder := @head_le_last ℕ id _ headers.2 _ _ isFirst isLast
        exact ⟨firstBounds.1, inOrder, by simp only; omega⟩
    · cases header
  · obtain ⟨index, indexMem, rfl⟩ := List.mem_map.mp declaration
    have bounds := declarations.1 index indexMem
    have dropped : ((splitLines content).drop (index - 1)).length =
        (splitLines content).length - (index - 1) := List.length_drop
    rcases source.braceRangeEndFrom_bounds index index 0 false
        ((splitLines content).drop (index - 1)) with same | ⟨after, before⟩
    · refine ⟨bounds.1, ?_, ?_⟩ <;> simp only [braceRangeEnd] <;> omega
    · refine ⟨bounds.1, ?_, ?_⟩ <;> simp only [braceRangeEnd] <;> omega

theorem rangesFor_inText (lower : List Char → List Char) (path content : List Char) :
    ∀ range ∈ source.rangesFor lower path content, InText (splitLines content).length range := by
  intro range member
  unfold rangesFor at member
  simp only at member
  split at member
  · exact source.pythonRanges_inText content range member
  · split at member
    · exact source.solidityRanges_inText content range member
    · refine source.blockRangesFrom_inText 1 none _ _ ?_ (by simp) le_rfl range member
      omega

/-- An excerpt holds the lines of its range and their hash; only a text without lines has an
excerpt that is not in the text. -/
theorem chunkText_spec (lower : List Char → List Char) (path content : List Char)
    (categories : List String) (maxChunkBytes : ℕ) (excerpt : ContextExcerpt Digest)
    (member : excerpt ∈
      (source.chunkText lower path content categories maxChunkBytes).excerpts) :
    excerpt.path = path ∧ excerpt.contentHash = source.hashText excerpt.content ∧
      (content = [] ∧ excerpt.content = [] ∧ excerpt.startLine = 1 ∧ excerpt.endLine = 1 ∨
        InText (splitLines content).length (excerpt.startLine, excerpt.endLine) ∧
          excerpt.content =
            selectLines (splitLines content) excerpt.startLine excerpt.endLine) := by
  unfold chunkText at member
  simp only at member
  split at member
  · next empty =>
      obtain rfl := List.mem_singleton.mp member
      have noText : content = [] := by
        rw [← flatten_splitLines content, List.isEmpty_iff.mp empty]
        rfl
      exact ⟨rfl, rfl, Or.inl ⟨noText, rfl, rfl, rfl⟩⟩
  · next someLines =>
      have positive : 0 < (splitLines content).length := by
        rw [List.length_pos_iff]
        simpa using someLines
      split at member
      · obtain rfl := List.mem_singleton.mp member
        exact ⟨rfl, rfl, Or.inr ⟨⟨le_rfl, positive, le_rfl⟩, rfl⟩⟩
      · obtain ⟨range, rangeMem, rfl⟩ := List.mem_map.mp member
        have inText := source.rangesFor_inText lower path content range
          (List.mem_of_mem_filter rangeMem)
        exact ⟨rfl, rfl, Or.inr ⟨inText, rfl⟩⟩

end Syntax

end Context

end MmAudit
