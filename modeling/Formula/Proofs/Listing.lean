import Formula.Program.Listing
import Formula.Proofs.Depth
import Formula.Proofs.Spelling

/-!
# Reading listings

Everything about a program is told by its listing. The line breaks set its lines apart, and within a
line the blanks do so with the address, the instruction and the depth. How many blanks there are
depends on how wide the columns are filled, but no field begins or ends with one, so that addresses
and instructions of any width are found again.

## Main definitions

- `words`: the parts of a text between its blanks
- `Instruction.words`: the parts of an instruction's text
- `ListsAs`: a line with an address, an instruction and a depth
- `Program.rows`: the characters of the lines of a listing

## Main statements

- `ListsAs.eq`: a line tells its address, its instruction and its depth
- `Program.splitOn_listing`: the lines of a listing
- `Program.listing_faithful`: a listing tells the program, and what stands on which line
-/

namespace Formula

open Decimal Number

/-! ### Texts between blanks -/

/-- The parts of a text between its blanks. -/
def words (text : List Char) : List (List Char) :=
  (text.splitOn ' ').filter (!·.isEmpty)

theorem words_append_blank (first rest : List Char) :
    words (first ++ ' ' :: rest) = words first ++ words rest := by
  rw [words, List.splitOn_append_cons_self, List.filter_append]
  rfl

theorem words_blanks_append (count : Nat) (text : List Char) :
    words (List.replicate count ' ' ++ text) = words text := by
  induction count with
  | zero => rfl
  | succ count ih =>
    have hblank := words_append_blank [] (List.replicate count ' ' ++ text)
    rw [ih] at hblank
    exact hblank

theorem words_of_undivided {text : List Char} (hne : text ≠ []) (h : ' ' ∉ text) :
    words text = [text] := by
  rw [words, List.splitOn_eq_singleton h]
  simp [hne]

theorem notMem_numeral {c : Char} (hdigit : c.isDigit = false) (n : Nat) : c ∉ numeral n := by
  intro hmem
  rw [isDigit_of_mem_numeral c hmem] at hdigit
  cases hdigit

theorem words_numeral (n : Nat) : words (numeral n) = [numeral n] :=
  words_of_undivided (numeral_ne_nil n) (notMem_numeral (by decide) n)

/-! ### Instructions -/

theorem compact_ne_nil (value : Float) : (compact value).toList ≠ [] := by
  intro h
  rcases Nat.lt_or_ge Binary64.infinity (magnitude value) with hnan | hle
  · rw [compact_of_infinity_lt hnan] at h
    cases h
  · rw [compact_of_le hle, String.toList_ofList] at h
    split at h
    · cases h
    · by_cases hinfinity : magnitude value = Binary64.infinity
      · rw [hinfinity, spell_infinity] at h
        cases h
      · obtain ⟨d, hd, -⟩ := exists_decimal?_spell hinfinity
        rw [h] at hd
        cases hd

theorem notMem_compact {c : Char} (hdigit : c.isDigit = false)
    (hother : c ∉ ['.', 'e', '-', 'i', 'n', 'f', 'N', 'a']) (value : Float) :
    c ∉ (compact value).toList := by
  intro hmem
  rcases isDigit_or_mem_of_mem_compact hmem with h | h
  · rw [hdigit] at h
    cases h
  · exact hother h

namespace Instruction

/-- The parts of an instruction's text: its name and, of a load, what is loaded. -/
def words : Instruction → List (List Char)
  | .loadConstant value => [['l', 'd', 'c'], (compact value).toList]
  | .loadParameter index => [['l', 'd', 'a', 'r', 'g'], numeral index.toNat]
  | .operate op => [op.mnemonic.toList]

theorem words_text (instruction : Instruction) :
    Formula.words instruction.text.toList = instruction.words := by
  cases instruction with
  | loadConstant value =>
    have htext : (loadConstant value).text.toList =
        ['l', 'd', 'c'] ++ ' ' :: (compact value).toList := by
      simp [text, toString]
    have hblank : ' ' ∉ (compact value).toList := notMem_compact (by decide) (by decide) value
    rw [htext, words_append_blank, words_of_undivided (compact_ne_nil value) hblank]
    rfl
  | loadParameter index =>
    have htext : (loadParameter index).text.toList =
        ['l', 'd', 'a', 'r', 'g'] ++ ' ' :: numeral index.toNat := by
      simp [text, toString, numeral]
    rw [htext, words_append_blank, words_numeral]
    rfl
  | operate op =>
    cases op <;> rfl

/-- An instruction is told by its text. -/
theorem eq_of_words_eq {instruction instruction' : Instruction}
    (h : instruction.words = instruction'.words) : instruction = instruction' := by
  cases instruction with
  | loadConstant value =>
    cases instruction' with
    | loadConstant value' =>
      have hvalue : (compact value).toList = (compact value').toList :=
        (List.cons.inj (List.cons.inj h).2).1
      rw [eq_of_compact_eq (String.toList_injective hvalue)]
    | loadParameter index' => cases (List.cons.inj h).1
    | operate op' => cases (List.cons.inj h).2
  | loadParameter index =>
    cases instruction' with
    | loadConstant value' => cases (List.cons.inj h).1
    | loadParameter index' =>
      have hindex : numeral index.toNat = numeral index'.toNat :=
        (List.cons.inj (List.cons.inj h).2).1
      rw [UInt32.toNat_inj.mp (eq_of_numeral_eq hindex)]
    | operate op' => cases (List.cons.inj h).2
  | operate op =>
    cases instruction' with
    | loadConstant value' => cases (List.cons.inj h).2
    | loadParameter index' => cases (List.cons.inj h).2
    | operate op' =>
      have hop : op.mnemonic = op'.mnemonic := String.toList_injective (List.cons.inj h).1
      rw [Operator.mnemonic_injective hop]

end Instruction

/-! ### Lines -/

/-- A line that consists of an address, the text of an instruction, and a depth behind a semicolon
and its name. Blanks stand between them and may stand in front. -/
def ListsAs (line : List Char) (address : Nat) (instruction : Instruction) (depth : Nat) : Prop :=
  ∃ before between after : Nat,
    line = List.replicate before ' ' ++ (numeral address ++ ' ' :: (List.replicate between ' ' ++
      (instruction.text.toList ++ ' ' :: (List.replicate after ' ' ++
        ([';'] ++ ' ' :: (['d', 'e', 'p', 't', 'h'] ++ ' ' :: numeral depth))))))

section Lines

variable {line : List Char} {address address' depth depth' : Nat}
  {instruction instruction' : Instruction}

theorem ListsAs.words (h : ListsAs line address instruction depth) :
    words line = numeral address ::
      (instruction.words ++ [[';'], ['d', 'e', 'p', 't', 'h'], numeral depth]) := by
  obtain ⟨before, between, after, rfl⟩ := h
  rw [words_blanks_append, words_append_blank, words_numeral, words_blanks_append,
    words_append_blank, instruction.words_text, words_blanks_append, words_append_blank,
    words_append_blank, words_numeral]
  rfl

/-- A line tells its address, its instruction and its depth. -/
theorem ListsAs.eq (h : ListsAs line address instruction depth)
    (h' : ListsAs line address' instruction' depth') :
    address = address' ∧ instruction = instruction' ∧ depth = depth' := by
  have hwords := h.words.symm.trans h'.words
  obtain ⟨haddress, hrest⟩ := List.cons.inj hwords
  obtain ⟨hinstruction, hlast⟩ := List.append_inj' hrest rfl
  have hdepth : numeral depth = numeral depth' :=
    (List.cons.inj (List.cons.inj (List.cons.inj hlast).2).2).1
  exact ⟨eq_of_numeral_eq haddress, Instruction.eq_of_words_eq hinstruction,
    eq_of_numeral_eq hdepth⟩

end Lines

namespace Program

/-- The characters of the line of an instruction in a listing. -/
def row (address : Nat) (instruction : Instruction) (depth : Nat) : List Char :=
  [' ', ' ', ' ', ' '] ++ (line address instruction depth).toList

theorem replicate_append_cons {α : Type} (count : Nat) (a : α) (rest : List α) :
    List.replicate count a ++ a :: rest = a :: (List.replicate count a ++ rest) := by
  rw [← List.cons_append, ← List.replicate_succ, List.replicate_succ', List.append_assoc]
  rfl

/-- However wide the columns are filled, the line of an instruction lists it. -/
theorem listsAs_row (address : Nat) (instruction : Instruction) (depth : Nat) :
    ListsAs (row address instruction depth) address instruction depth := by
  refine ⟨4 + (4 - (numeral address).length), 1, 12 - instruction.text.toList.length, ?_⟩
  rw [← List.replicate_append_replicate]
  simp [row, line, Column.right, Column.left, List.leftpad, List.rightpad, toString, numeral,
    replicate_append_cons, List.replicate_succ]

theorem lineBreak_notMem_row (address : Nat) (instruction : Instruction) (depth : Nat) :
    '\n' ∉ row address instruction depth := by
  have hnumeral (n : Nat) : '\n' ∉ numeral n := notMem_numeral (by decide) n
  have htext : '\n' ∉ instruction.text.toList := by
    cases instruction with
    | loadConstant value =>
      have hvalue := notMem_compact (c := '\n') (by decide) (by decide) value
      simp [Instruction.text, toString, hvalue]
    | loadParameter index =>
      have hindex := hnumeral index.toNat
      simpa [Instruction.text, toString, numeral] using hindex
    | operate op => cases op <;> decide
  obtain ⟨before, between, after, hrow⟩ := listsAs_row address instruction depth
  rw [hrow]
  simp [hnumeral, htext, List.mem_replicate]

/-! ### Listings -/

/-- The lines of a listing between its sizes and its last line. -/
def rows (p : Program) : List (List Char) :=
  (p.instructions.zip p.depths).zipIdx.map fun ((instruction, depth), address) =>
    row address instruction depth

/-- The lines of a listing in front of those of the instructions. -/
def heading (p : Program) : List (List Char) :=
  ["Code \x7b".toList, "  arity: ".toList ++ numeral p.arity,
    "  max_stack_size: ".toList ++ numeral p.maxDepth, "  instructions:".toList]

/-- Lines that end with a line break are found again in front of a last one without. -/
theorem splitOn_lines {ls : List (List Char)} {last : List Char} (h : ∀ l ∈ ls, '\n' ∉ l)
    (hlast : '\n' ∉ last) :
    ((ls.flatMap fun l => l ++ ['\n']) ++ last).splitOn '\n' = ls ++ [last] := by
  induction ls with
  | nil => exact List.splitOn_eq_singleton hlast
  | cons l ls ih =>
    obtain ⟨hl, hls⟩ := List.forall_mem_cons.mp h
    rw [List.flatMap_cons, List.append_assoc, List.append_assoc, List.singleton_append,
      List.splitOn_append_cons_self_of_not_mem hl, ih hls, List.cons_append]

theorem toList_listing (p : Program) :
    p.listing.toList =
      ((p.heading ++ p.rows).flatMap fun l => l ++ ['\n']) ++ ['\x7d'] := by
  simp [listing, heading, rows, lines, row, toString, numeral, List.flatMap_map]

/-- The lines of a listing. -/
theorem splitOn_listing (p : Program) :
    p.listing.toList.splitOn '\n' = p.heading ++ p.rows ++ [['\x7d']] := by
  rw [toList_listing]
  apply splitOn_lines
  · rw [List.forall_mem_append]
    constructor
    · have hnumeral (n : Nat) : '\n' ∉ numeral n := notMem_numeral (by decide) n
      simp [heading, hnumeral]
    · intro l hl
      obtain ⟨⟨⟨instruction, depth⟩, address⟩, -, rfl⟩ := List.mem_map.mp hl
      exact lineBreak_notMem_row address instruction depth
  · decide

theorem length_rows (p : Program) : p.rows.length = p.length := by
  rw [rows, List.length_map, List.length_zipIdx, List.length_zip, p.length_depths]
  exact Nat.min_self _

/-- The line of an instruction holds its position, the instruction and the depth after it. -/
theorem getElem?_rows {p : Program} {k : Nat} (h : k < p.length) :
    ∃ instruction depth, p.instructions[k]? = some instruction ∧ p.depths[k]? = some depth ∧
      p.rows[k]? = some (row k instruction depth) := by
  have hdepths : k < p.depths.length := by rwa [length_depths]
  have hinstruction : p.instructions[k]? = some p.instructions[k] := List.getElem?_eq_getElem h
  have hdepth : p.depths[k]? = some p.depths[k] := List.getElem?_eq_getElem hdepths
  refine ⟨_, _, hinstruction, hdepth, ?_⟩
  have hpair : (p.instructions.zip p.depths)[k]? = some (p.instructions[k], p.depths[k]) :=
    List.getElem?_zip_eq_some.mpr ⟨hinstruction, hdepth⟩
  rw [rows, List.getElem?_map, List.getElem?_zipIdx, hpair]
  simp

/-- The lines of the instructions tell the instructions. -/
theorem instructions_eq_of_rows_eq {p q : Program} (h : p.rows = q.rows) :
    p.instructions = q.instructions := by
  have hlength : p.length = q.length := by rw [← length_rows, ← length_rows, h]
  refine List.ext_getElem hlength fun k hk hk' => ?_
  obtain ⟨instruction, depth, hinstruction, -, hrow⟩ := getElem?_rows hk
  obtain ⟨instruction', depth', hinstruction', -, hrow'⟩ := getElem?_rows hk'
  rw [h, hrow', Option.some_inj] at hrow
  have hlists : ListsAs (row k instruction depth) k instruction' depth' := by
    rw [← hrow]
    exact listsAs_row k instruction' depth'
  obtain ⟨-, hsame, -⟩ := (listsAs_row k instruction depth).eq hlists
  rw [List.getElem?_eq_getElem hk, Option.some_inj] at hinstruction
  rw [List.getElem?_eq_getElem hk', Option.some_inj] at hinstruction'
  rw [hinstruction, hinstruction', hsame]

/-- Programs with the same listing are the same: they have as many parameters, need as much room and
have the same instructions, where constants are the same if their bits are and there is one NaN.
Behind the four lines of the heading a listing has a line for each instruction and a last one, and
on the line of an instruction stand its position, the instruction and the depth after it. -/
theorem listing_faithful :
    (∀ p q : Program, p.listing = q.listing →
      p.arity = q.arity ∧ p.maxDepth = q.maxDepth ∧ p.instructions = q.instructions) ∧
    ∀ p : Program, (p.listing.toList.splitOn '\n').length = p.length + 5 ∧
      ∀ k, k < p.length → ∃ line instruction depth,
        (p.listing.toList.splitOn '\n')[k + 4]? = some line ∧
        p.instructions[k]? = some instruction ∧ p.depths[k]? = some depth ∧
        ListsAs line k instruction depth := by
  constructor
  · intro p q h
    have hlines := congrArg (fun text : String => text.toList.splitOn '\n') h
    simp only [splitOn_listing] at hlines
    obtain ⟨hfront, -⟩ := List.append_inj' hlines rfl
    obtain ⟨hheading, hrows⟩ := List.append_inj hfront rfl
    obtain ⟨-, hsizes⟩ := List.cons.inj hheading
    obtain ⟨harity, hrest⟩ := List.cons.inj hsizes
    obtain ⟨hdepth, -⟩ := List.cons.inj hrest
    exact ⟨eq_of_numeral_eq (List.append_cancel_left harity),
      eq_of_numeral_eq (List.append_cancel_left hdepth), instructions_eq_of_rows_eq hrows⟩
  · intro p
    rw [splitOn_listing]
    constructor
    · rw [List.length_append, List.length_append, length_rows]
      simp [heading]
      omega
    · intro k hk
      obtain ⟨instruction, depth, hinstruction, hdepth, hrow⟩ := getElem?_rows hk
      refine ⟨row k instruction depth, instruction, depth, ?_, hinstruction, hdepth,
        listsAs_row k instruction depth⟩
      have hheading : p.heading.length = 4 := rfl
      have hrows : k < p.rows.length := by rwa [length_rows]
      rw [List.append_assoc, List.getElem?_append_right (by omega), hheading, Nat.add_sub_cancel,
        List.getElem?_append_left hrows, hrow]

/-- The last instruction of a quotient stands on the seventh line, and the program is told by its
listing. -/
theorem quotient_listing :
    let p : Program :=
      ⟨[.loadParameter 0, .loadConstant 3.0, .operate .divide], 1, 2, rfl⟩
    (∀ q : Program, p.listing = q.listing → q.instructions = p.instructions) ∧
      ListsAs "       2  div          ; depth 1".toList 2 (.operate .divide) 1 := by
  intro p
  obtain ⟨htold, hlines⟩ := listing_faithful
  obtain ⟨line, instruction, depth, hline, hinstruction, hdepth, hlists⟩ :=
    (hlines p).2 2 (by decide)
  obtain rfl : instruction = .operate .divide := (Option.some_inj.mp hinstruction).symm
  obtain rfl : depth = 1 := (Option.some_inj.mp hdepth).symm
  have hrow : line = "       2  div          ; depth 1".toList := by
    rw [splitOn_listing] at hline
    exact (Option.some_inj.mp hline).symm
  rw [hrow] at hlists
  exact ⟨fun q hq => (htold p q hq).2.2.symm, hlists⟩

end Program

end Formula
