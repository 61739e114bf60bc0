import WorldstreetChain.Library.Split
import WorldstreetChain.Program.Format

/-!
# The Rust frontend (`compile_rust_source`)

The documents name two forms of a source. The compiler does not parse them: it looks for words
anywhere in the text, takes what stands between the first `{` and the next `}`, and reads a literal
from what is left of it behind a `return` and in front of semicolons.

* `DocumentedForm` -- the forms of the documents.
* `compileRustSource` -- the compiler; `parseStr` is `wat::parse_str`.
* `documentedForm_iff` -- **the documented forms in the compiler's own pieces**.
* `compile_exact_iff` -- when a source is compiled just if it has a documented form.
-/

namespace WorldstreetChain

namespace Frontend

open Text

/-! ## 1. Literals -/

/-- `char::is_whitespace`. -/
def isWhitespace (c : Char) : Bool :=
  c.toNat ∈ [9, 10, 11, 12, 13, 32, 0x85, 0xa0, 0x1680, 0x2000, 0x2001, 0x2002, 0x2003, 0x2004,
    0x2005, 0x2006, 0x2007, 0x2008, 0x2009, 0x200a, 0x2028, 0x2029, 0x202f, 0x205f, 0x3000]

/-- The sign of a numeral, and what follows it. -/
def splitSign : List Char → Bool × List Char
  | '-' :: rest => (true, rest)
  | '+' :: rest => (false, rest)
  | chars => (false, chars)

/-- `str::parse::<i32>`: decimal digits after an optional sign. -/
def parseI32 (text : List Char) : Option Int :=
  let (negative, digits) := splitSign text
  if digits.isEmpty || !digits.all Char.isDigit then none
  else
    let n := digits.foldl (fun n c => 10 * n + (c.toNat - '0'.toNat)) 0
    if negative then if n ≤ 2 ^ 31 then some (-n) else none
    else if n < 2 ^ 31 then some n else none

/-- A character a literal can have. -/
def literalChar (c : Char) : Bool := c.isDigit || c = '-' || c = '+'

theorem all_splitSign {text : List Char} (h : (splitSign text).2.all Char.isDigit = true) :
    ∀ c ∈ text, literalChar c = true := by
  have hdigits : ∀ rest : List Char, rest.all Char.isDigit = true →
      ∀ c ∈ rest, literalChar c = true := by
    intro rest hrest c hc
    unfold literalChar
    rw [List.all_eq_true.mp hrest c hc]
    rfl
  intro c hc
  unfold splitSign at h
  split at h
  · obtain rfl | hc := List.mem_cons.mp hc
    · rfl
    · exact hdigits _ h c hc
  · obtain rfl | hc := List.mem_cons.mp hc
    · rfl
    · exact hdigits _ h c hc
  · exact hdigits _ h c hc

theorem parseI32_some {text : List Char} {n : Int} (h : parseI32 text = some n) :
    text ≠ [] ∧ ∀ c ∈ text, literalChar c = true := by
  unfold parseI32 at h
  dsimp only at h
  split at h
  · cases h
  · rename_i hdigits
    rw [Bool.or_eq_true, not_or, Bool.not_eq_true', Bool.not_eq_false] at hdigits
    refine ⟨fun hnil => ?_, all_splitSign hdigits.2⟩
    rw [hnil] at hdigits
    exact hdigits.1 rfl

theorem toNat_of_literal {c : Char} (h : literalChar c = true) : 43 ≤ c.toNat ∧ c.toNat ≤ 57 := by
  unfold literalChar at h
  rw [Bool.or_eq_true, Bool.or_eq_true, decide_eq_true_eq, decide_eq_true_eq] at h
  obtain (hdigit | rfl) | rfl := h
  · have hbounds := Char.isDigit_iff_toNat.mp hdigit
    have hzero : '0'.toNat = 48 := rfl
    have hnine : '9'.toNat = 57 := rfl
    omega
  · decide
  · decide

theorem whitespace_of_literal {c : Char} (h : literalChar c = true) : isWhitespace c = false := by
  have hbounds := toNat_of_literal h
  have hcodes : ∀ n ∈ [9, 10, 11, 12, 13, 32, 0x85, 0xa0, 0x1680, 0x2000, 0x2001, 0x2002, 0x2003,
      0x2004, 0x2005, 0x2006, 0x2007, 0x2008, 0x2009, 0x200a, 0x2028, 0x2029, 0x202f, 0x205f,
      0x3000], n < 43 ∨ 57 < n := by
    decide
  refine decide_eq_false fun hmem => ?_
  have hcode := hcodes _ hmem
  omega

theorem not_mem_literal {text : List Char} {n : Int} {c : Char} (h : parseI32 text = some n)
    (hc : literalChar c = false) : c ∉ text := by
  intro hmem
  rw [(parseI32_some h).2 c hmem] at hc
  cases hc

/-! ## 2. The forms of the documents -/

def Spaces (text : List Char) : Prop := ∀ c ∈ text, isWhitespace c = true

theorem Spaces.not_mem {text : List Char} {c : Char} (h : Spaces text)
    (hc : isWhitespace c = false) : c ∉ text := by
  intro hmem
  rw [h c hmem] at hc
  cases hc

theorem Spaces.append {text text' : List Char} (h : Spaces text) (h' : Spaces text') :
    Spaces (text ++ text') := by
  intro c hc
  obtain hc | hc := List.mem_append.mp hc
  · exact h c hc
  · exact h' c hc

/-- `fn main() -> i32`, with white space between its words, and perhaps between its other signs. -/
def Header (text : List Char) : Prop :=
  ∃ s₁ s₂ s₃ s₄ s₅ s₆, Spaces s₁ ∧ Spaces s₂ ∧ Spaces s₃ ∧ Spaces s₄ ∧ Spaces s₅ ∧ Spaces s₆ ∧
    s₁ ≠ [] ∧ text = "fn".toList ++ (s₁ ++ ("main".toList ++ (s₂ ++ ("(".toList ++ (s₃ ++
      (")".toList ++ (s₄ ++ ("->".toList ++ (s₅ ++ ("i32".toList ++ s₆))))))))))

/-- A literal, and perhaps a semicolon behind it. -/
def Statement (text : List Char) (n : Int) : Prop :=
  ∃ s literal s' semicolon s'', Spaces s ∧ Spaces s' ∧ Spaces s'' ∧
    (semicolon = [] ∨ semicolon = [';']) ∧ parseI32 literal = some n ∧
    text = s ++ (literal ++ (s' ++ (semicolon ++ s'')))

/-- What follows a word does not go on with it. -/
def Apart (text : List Char) : Prop := ∀ c, text.head? = some c → c.isDigit = false

/-- `N`, or `return N`. -/
def DocumentedBody (text : List Char) (n : Int) : Prop :=
  Statement text n ∨
  ∃ s rest, Spaces s ∧ Apart rest ∧ Statement rest n ∧ text = s ++ ("return".toList ++ rest)

/-- `fn main() -> i32 { N }` or `fn main() -> i32 { return N; }`. -/
def DocumentedForm (text : List Char) (n : Int) : Prop :=
  ∃ header body, Header header ∧ DocumentedBody body n ∧ text = header ++ '{' :: (body ++ ['}'])

theorem Header.not_mem {text : List Char} (h : Header text) : '{' ∉ text := by
  obtain ⟨s₁, s₂, s₃, s₄, s₅, s₆, h₁, h₂, h₃, h₄, h₅, h₆, -, rfl⟩ := h
  simp only [List.mem_append, not_or]
  exact ⟨by decide, h₁.not_mem (by decide), by decide, h₂.not_mem (by decide), by decide,
    h₃.not_mem (by decide), by decide, h₄.not_mem (by decide), by decide, h₅.not_mem (by decide),
    by decide, h₆.not_mem (by decide)⟩

/-- A statement has the characters of a literal, white space and semicolons. -/
theorem Statement.not_mem {text : List Char} {n : Int} {c : Char} (h : Statement text n)
    (hspace : isWhitespace c = false) (hliteral : literalChar c = false) (hc : c ≠ ';') :
    c ∉ text := by
  obtain ⟨s, literal, s', semicolon, s'', h₁, h₂, h₃, hsemicolon, hparse, rfl⟩ := h
  have hsign : c ∉ semicolon := by
    obtain rfl | rfl := hsemicolon
    · exact List.not_mem_nil
    · exact fun hmem => hc (List.mem_singleton.mp hmem)
  simp only [List.mem_append, not_or]
  exact ⟨h₁.not_mem hspace, not_mem_literal hparse hliteral, h₂.not_mem hspace, hsign,
    h₃.not_mem hspace⟩

theorem DocumentedBody.not_mem {text : List Char} {n : Int} (h : DocumentedBody text n) :
    '}' ∉ text := by
  obtain h | ⟨s, rest, hs, -, hrest, rfl⟩ := h
  · exact h.not_mem (by decide) (by decide) (by decide)
  · simp only [List.mem_append, not_or]
    exact ⟨hs.not_mem (by decide), by decide,
      hrest.not_mem (by decide) (by decide) (by decide)⟩

/-! ## 3. The pieces the compiler takes -/

/-- What stands between the first `{` and the next `}`, or the end. -/
def mainBody (text : List Char) : List Char :=
  (((splitOnce ['{'] text).map Prod.snd).getD []).takeWhile (· ≠ '}')

/-- What stands behind the first `return`, if there is one, less the white space around it. -/
def mainStatement (text : List Char) : List Char :=
  trim isWhitespace
    (((splitOnce "return".toList (mainBody text)).map Prod.snd).getD (mainBody text))

/-- `value_text`. -/
def valueText (text : List Char) : List Char :=
  trim isWhitespace ((mainStatement text).rdropWhile (· = ';'))

/-- The source passes the searches for words. -/
def Worded (text : List Char) : Prop :=
  contains "unsafe".toList text = false ∧ contains "extern crate".toList text = false ∧
    contains "std::".toList text = false ∧ contains "fn main".toList text = true ∧
    contains "-> i32".toList text = true

instance (text : List Char) : Decidable (Worded text) :=
  inferInstanceAs (Decidable (_ ∧ _ ∧ _ ∧ _ ∧ _))

/-- Around the literal there is nothing but `fn main() -> i32 {`, a `return`, one semicolon and the
    `}` that ends the text. -/
structure Shaped (text : List Char) : Prop where
  header : ∃ header rest, splitOnce ['{'] text = some (header, rest) ∧ Header header ∧
    rest.dropWhile (· ≠ '}') = ['}']
  lead : ∀ lead rest, splitOnce "return".toList (mainBody text) = some (lead, rest) →
    Spaces lead ∧ Apart rest
  semicolons : ((mainStatement text).rtakeWhile (· = ';')).length ≤ 1

theorem trim_literal {s literal s' : List Char} {n : Int} (hs : Spaces s)
    (h : parseI32 literal = some n) (hs' : Spaces s') :
    trim isWhitespace (s ++ (literal ++ s')) = literal := by
  refine trim_append hs hs' (fun c hc => ?_) fun c hc => ?_
  · exact whitespace_of_literal ((parseI32_some h).2 c (List.mem_of_head? hc))
  · exact whitespace_of_literal ((parseI32_some h).2 c (List.mem_of_getLast? hc))

/-- Where there is no semicolon, none is taken off the end. -/
theorem semicolons_of_not_mem {l : List Char} (h : ';' ∉ l) :
    l.rtakeWhile (· = ';') = [] ∧ l.rdropWhile (· = ';') = l := by
  have hlast : ∀ hl : l ≠ [], ¬ decide (l.getLast hl = ';') = true := by
    intro hl hsemicolon
    exact h (of_decide_eq_true hsemicolon ▸ List.getLast_mem hl)
  exact ⟨List.rtakeWhile_eq_nil_iff.mpr hlast, List.rdropWhile_eq_self_iff.mpr hlast⟩

/-- **A statement in the compiler's pieces.** -/
theorem statement_iff {text : List Char} {n : Int} : Statement text n ↔
    ((trim isWhitespace text).rtakeWhile (· = ';')).length ≤ 1 ∧
      parseI32 (trim isWhitespace ((trim isWhitespace text).rdropWhile (· = ';'))) = some n := by
  constructor
  · intro ⟨s, literal, s', semicolon, s'', hs, hs', hs'', hsemicolon, hparse, htext⟩
    have hliteral : ';' ∉ literal := not_mem_literal hparse (by decide)
    have hself : trim isWhitespace literal = literal := by
      have hnone : Spaces [] := fun _ h => by cases h
      have htrim := trim_literal hnone hparse hnone
      rwa [List.nil_append, List.append_nil] at htrim
    obtain rfl | rfl := hsemicolon
    · rw [List.nil_append] at htext
      rw [htext, trim_literal hs hparse (hs'.append hs''), (semicolons_of_not_mem hliteral).1,
        (semicolons_of_not_mem hliteral).2, hself]
      exact ⟨Nat.zero_le 1, hparse⟩
    · have hfront : ';' ∉ literal ++ s' := by
        rw [List.mem_append, not_or]
        exact ⟨hliteral, hs'.not_mem (by decide)⟩
      have htrim : trim isWhitespace text = (literal ++ s') ++ [';'] := by
        have hsplit : text = s ++ (((literal ++ s') ++ [';']) ++ s'') := by
          rw [htext]
          simp only [List.append_assoc]
        rw [hsplit]
        refine trim_append hs hs'' (fun c hc => ?_) fun c hc => ?_
        · obtain ⟨d, rest, hd⟩ := List.exists_cons_of_ne_nil (parseI32_some hparse).1
          rw [hd] at hc
          have hcd : d = c := Option.some.inj hc
          rw [← hcd]
          exact whitespace_of_literal ((parseI32_some hparse).2 d (hd ▸ List.mem_cons_self))
        · rw [List.getLast?_concat] at hc
          cases hc
          decide
      rw [htrim, List.rtakeWhile_concat_pos _ _ _ (by decide),
        List.rdropWhile_concat_pos _ _ _ (by decide), (semicolons_of_not_mem hfront).1,
        (semicolons_of_not_mem hfront).2]
      have hvalue := trim_literal (s := []) (fun _ h => by cases h) hparse hs'
      rw [List.nil_append] at hvalue
      rw [hvalue]
      exact ⟨Nat.le_refl 1, hparse⟩
  · intro ⟨hsemicolons, hparse⟩
    obtain ⟨a, b, ha, hb, htext⟩ := exists_trim isWhitespace text
    obtain ⟨c, d, hc, hd, hinner⟩ := exists_trim isWhitespace
      ((trim isWhitespace text).rdropWhile (· = ';'))
    refine ⟨a ++ c, _, d, (trim isWhitespace text).rtakeWhile (· = ';'), b,
      Spaces.append ha hc, hd, hb, ?_, hparse, ?_⟩
    · have hall : ∀ e ∈ (trim isWhitespace text).rtakeWhile (· = ';'), e = ';' := by
        intro e he
        have hdecide := List.mem_rtakeWhile_imp he
        exact of_decide_eq_true hdecide
      generalize (trim isWhitespace text).rtakeWhile (· = ';') = semicolons at hsemicolons hall
      cases semicolons with
      | nil => exact Or.inl rfl
      | cons e rest =>
        have hrest : rest = [] := List.length_eq_zero_iff.mp (by
          rw [List.length_cons] at hsemicolons
          omega)
        rw [hall e List.mem_cons_self, hrest]
        exact Or.inr rfl
    · calc text = a ++ (trim isWhitespace text ++ b) := htext
        _ = a ++ (((trim isWhitespace text).rdropWhile (· = ';') ++
              (trim isWhitespace text).rtakeWhile (· = ';')) ++ b) := by
            rw [List.rdropWhile_append_rtakeWhile]
        _ = _ := by
            rw [List.append_assoc, List.append_assoc]
            congr 1
            nth_rewrite 1 [hinner]
            simp only [List.append_assoc]

theorem mainBody_of_split {text header rest : List Char}
    (h : splitOnce ['{'] text = some (header, rest)) :
    mainBody text = rest.takeWhile (· ≠ '}') := by
  unfold mainBody
  rw [h]
  rfl

/-- The body is read up to its brace. -/
theorem takeWhile_brace {body : List Char} (h : '}' ∉ body) :
    (body ++ ['}']).takeWhile (· ≠ '}') = body ∧
    (body ++ ['}']).dropWhile (· ≠ '}') = ['}'] := by
  have hall : ∀ c ∈ body, decide (c ≠ '}') = true := by
    intro c hc
    exact decide_eq_true fun hbrace => h (hbrace ▸ hc)
  constructor
  · rw [List.takeWhile_append_of_pos hall]
    exact List.append_nil body
  · rw [dropWhile_append_of_all hall]
    rfl

theorem mainStatement_of_split {text lead rest : List Char}
    (h : splitOnce "return".toList (mainBody text) = some (lead, rest)) :
    mainStatement text = trim isWhitespace rest := by
  unfold mainStatement
  rw [h]
  rfl

theorem mainStatement_of_none {text : List Char}
    (h : splitOnce "return".toList (mainBody text) = none) :
    mainStatement text = trim isWhitespace (mainBody text) := by
  unfold mainStatement
  rw [h]
  rfl

theorem shaped_of_documented {text : List Char} {n : Int} (h : DocumentedForm text n) :
    Shaped text ∧ parseI32 (valueText text) = some n := by
  obtain ⟨header, body, hheader, hbody, htext⟩ := h
  have hsplit : splitOnce ['{'] text = some (header, body ++ ['}']) := by
    rw [htext]
    exact splitOnce_found hheader.not_mem
  obtain ⟨htake, hdrop⟩ := takeWhile_brace hbody.not_mem
  have hmain : mainBody text = body := (mainBody_of_split hsplit).trans htake
  have hheaders := (⟨header, body ++ ['}'], hsplit, hheader, hdrop⟩ :
    ∃ header rest, splitOnce ['{'] text = some (header, rest) ∧ Header header ∧
      rest.dropWhile (· ≠ '}') = ['}'])
  obtain hstatement | ⟨lead, rest, hlead, hapart, hstatement, hreturn⟩ := hbody
  · have hnone : splitOnce "return".toList (mainBody text) = none := by
      rw [hmain]
      exact splitOnce_eq_none (hstatement.not_mem (by decide) (by decide) (by decide))
    obtain ⟨hsemicolons, hparse⟩ := statement_iff.mp hstatement
    have hstatement := mainStatement_of_none hnone
    rw [hmain] at hstatement
    refine ⟨⟨hheaders, fun lead rest hsome => ?_, hstatement ▸ hsemicolons⟩, ?_⟩
    · rw [hnone] at hsome
      cases hsome
    · unfold valueText
      rw [hstatement, hparse]
  · have hsome : splitOnce "return".toList (mainBody text) = some (lead, rest) := by
      rw [hmain, hreturn]
      exact splitOnce_found (hlead.not_mem (by decide))
    obtain ⟨hsemicolons, hparse⟩ := statement_iff.mp hstatement
    have hstatement := mainStatement_of_split hsome
    refine ⟨⟨hheaders, fun lead' rest' hsome' => ?_, hstatement ▸ hsemicolons⟩, ?_⟩
    · rw [hsome] at hsome'
      cases hsome'
      exact ⟨hlead, hapart⟩
    · unfold valueText
      rw [hstatement, hparse]

theorem documented_of_shaped {text : List Char} {n : Int} (h : Shaped text)
    (hparse : parseI32 (valueText text) = some n) : DocumentedForm text n := by
  obtain ⟨header, rest, hsplit, hheader, hdrop⟩ := h.header
  refine ⟨header, mainBody text, hheader, ?_, ?_⟩
  · have hsemicolons := h.semicolons
    unfold valueText at hparse
    cases hreturn : splitOnce "return".toList (mainBody text) with
    | none =>
      rw [mainStatement_of_none hreturn] at hsemicolons hparse
      exact Or.inl (statement_iff.mpr ⟨hsemicolons, hparse⟩)
    | some halves =>
      rw [mainStatement_of_split hreturn] at hsemicolons hparse
      obtain ⟨hlead, hapart⟩ := h.lead halves.1 halves.2 hreturn
      exact Or.inr ⟨halves.1, halves.2, hlead, hapart, statement_iff.mpr ⟨hsemicolons, hparse⟩,
        splitOnce_eq_some hreturn⟩
  · have hrest : rest = mainBody text ++ ['}'] := by
      rw [mainBody_of_split hsplit, ← hdrop, List.takeWhile_append_dropWhile]
    rw [← hrest]
    exact splitOnce_eq_some hsplit

/-- **The documented forms in the compiler's own pieces.** -/
theorem documentedForm_iff {text : List Char} {n : Int} : DocumentedForm text n ↔
    Shaped text ∧ parseI32 (valueText text) = some n :=
  ⟨shaped_of_documented, fun h => documented_of_shaped h.1 h.2⟩

/-! ## 4. The compiler -/

/-- The module with one constant, in text. -/
def watSource (value : Int) : String :=
  "(module (func (export \"main\") (result i32) i32.const " ++ toString value ++ "))"

/-- `source.trim()`. -/
def trimmed (source : String) : List Char := trim isWhitespace source.toList

section Compiler

variable (C : Crypto) (R : WasmRuntime) (parseStr : String → Except String (List UInt8))

/-- `parseStr` is `wat::parse_str`. -/
def compileRustSource (name source : String) : Except ProgramError ProgramPackage :=
  let text := trimmed source
  if contains "unsafe".toList text ∨ contains "extern crate".toList text
      ∨ contains "std::".toList text then
    .error (.wasmValidation "Rust source uses a disallowed feature")
  else if ¬ contains "fn main".toList text ∨ ¬ contains "-> i32".toList text then
    .error (.wasmValidation "Rust MVP source must define fn main() -> i32")
  else
    match parseI32 (valueText text) with
    | none => .error (.wasmValidation "Rust MVP main must return a signed i32 literal")
    | some value =>
      match parseStr (watSource value) with
      | .error e => .error (.wasmValidation e)
      | .ok wasm =>
        ProgramPackage.fromWasm C R
          { name := name
            language := "rust"
            compilerVersion := "it-rust-subset-0.1"
            vmVersion := "1"
            entrypoint := "main"
            capabilities := []
            abi := ∅ } wasm

/-- With enough gas the package returns the constant. -/
def MainReturns (p : ProgramPackage) (n : Int) : Prop :=
  ∃ enough : U64, ∀ gas : U64, gas ≠ 0 → enough.toNat ≤ gas.toNat →
    ∃ used, execute C R p gas = .ok (toLeBytes (BitVec.ofInt 32 n), used)

/-- The text with the constant is assembled to a valid module whose `main` returns it. -/
def Assembles (n : Int) : Prop :=
  ∃ wasm, parseStr (watSource n) = .ok wasm ∧ validateWasm R wasm "main" = .ok () ∧
    ∃ enough : U64, ∀ gas : U64, enough.toNat ≤ gas.toNat →
      ∃ used, R.callEntrypoint wasm "main" gas = .ok (BitVec.ofInt 32 n, used)

/-- A source is compiled just if it has a documented form, and then its `main` returns the literal
    of that form. -/
def CompilesExactly (name source : String) : Prop :=
  ((∃ p, compileRustSource C R parseStr name source = .ok p) ↔
    ∃ n, DocumentedForm (trimmed source) n) ∧
  ∀ n p, DocumentedForm (trimmed source) n → compileRustSource C R parseStr name source = .ok p →
    MainReturns C R p n

variable {C R parseStr} {name source : String} {n : Int} {p : ProgramPackage}

theorem compile_eq (h : Worded (trimmed source)) :
    compileRustSource C R parseStr name source =
      match parseI32 (valueText (trimmed source)) with
      | none => .error (.wasmValidation "Rust MVP main must return a signed i32 literal")
      | some value =>
        match parseStr (watSource value) with
        | .error e => .error (.wasmValidation e)
        | .ok wasm =>
          ProgramPackage.fromWasm C R
            { name := name
              language := "rust"
              compilerVersion := "it-rust-subset-0.1"
              vmVersion := "1"
              entrypoint := "main"
              capabilities := []
              abi := ∅ } wasm := by
  obtain ⟨hraw, hcrate, hstd, hmain, hresult⟩ := h
  unfold compileRustSource
  dsimp only
  rw [hraw, hcrate, hstd, hmain, hresult, if_neg (by decide), if_neg (by decide)]

theorem worded_of_compile (h : compileRustSource C R parseStr name source = .ok p) :
    Worded (trimmed source) := by
  unfold compileRustSource at h
  dsimp only at h
  split at h
  · cases h
  rename_i hallowed
  split at h
  · cases h
  rename_i hwords
  simp only [not_or, Bool.not_eq_true] at hallowed
  rw [not_or, Decidable.not_not, Decidable.not_not] at hwords
  exact ⟨hallowed.1, hallowed.2.1, hallowed.2.2, hwords.1, hwords.2⟩

/-- **What is compiled** is the literal the compiler finds. -/
theorem compile_eq_ok (h : compileRustSource C R parseStr name source = .ok p) :
    ∃ n wasm, parseI32 (valueText (trimmed source)) = some n ∧ parseStr (watSource n) = .ok wasm ∧
      p.wasm = wasm ∧ p.manifest.entrypoint = "main" ∧ p.verify C R = .ok () := by
  rw [compile_eq (worded_of_compile h)] at h
  split at h
  · cases h
  rename_i n hparse
  split at h
  · cases h
  rename_i wasm hwat
  obtain ⟨hp, hverify⟩ := ProgramPackage.fromWasm_eq_ok.mp h
  exact ⟨n, wasm, hparse, hwat, by rw [hp], by rw [hp], hverify⟩

theorem compile_of_worded (h : Worded (trimmed source))
    (hparse : parseI32 (valueText (trimmed source)) = some n) (hwat : Assembles R parseStr n) :
    ∃ p, compileRustSource C R parseStr name source = .ok p := by
  obtain ⟨wasm, hwasm, hvalid, -⟩ := hwat
  rw [compile_eq h, hparse]
  dsimp only
  rw [hwasm]
  refine ⟨_, ProgramPackage.fromWasm_eq_ok.mpr ⟨rfl, ?_⟩⟩
  unfold ProgramPackage.verify
  rw [if_neg (by simp only [ne_eq, not_true_eq_false, not_false_eq_true])]
  exact hvalid

theorem mainReturns_of_compile (h : compileRustSource C R parseStr name source = .ok p)
    (hparse : parseI32 (valueText (trimmed source)) = some n) (hwat : Assembles R parseStr n) :
    MainReturns C R p n := by
  obtain ⟨m, wasm, hm, hwasm, hp, hentry, hverify⟩ := compile_eq_ok h
  rw [hparse] at hm
  cases hm
  obtain ⟨wasm', hwasm', -, enough, hcall⟩ := hwat
  rw [hwasm] at hwasm'
  cases hwasm'
  refine ⟨enough, fun gas hgas henough => ?_⟩
  obtain ⟨used, hused⟩ := hcall gas henough
  refine ⟨used.getD 0, ?_⟩
  unfold execute
  rw [if_neg hgas, hverify, hp, hentry, hused]

/-- **When a source is compiled just if it has a documented form**: where the compiler finds a
    literal, the words it looks for are there just if there is nothing around it but the form. -/
theorem compile_exact_iff (C : Crypto) (R : WasmRuntime)
    (parseStr : String → Except String (List UInt8)) (name source : String)
    (hwat : ∀ n, parseI32 (valueText (trimmed source)) = some n → Assembles R parseStr n) :
    CompilesExactly C R parseStr name source ↔
      ((parseI32 (valueText (trimmed source))).isSome = true →
        (Worded (trimmed source) ↔ Shaped (trimmed source))) := by
  constructor
  · intro hexact hsome
    have hcompiles := hexact.1
    obtain ⟨n, hparse⟩ := Option.isSome_iff_exists.mp hsome
    constructor
    · intro hworded
      obtain ⟨m, hform⟩ := hcompiles.mp (compile_of_worded hworded hparse (hwat n hparse))
      exact (documentedForm_iff.mp hform).1
    · intro hshaped
      obtain ⟨p, hp⟩ := hcompiles.mpr ⟨n, documentedForm_iff.mpr ⟨hshaped, hparse⟩⟩
      exact worded_of_compile hp
  · intro h
    refine ⟨⟨fun ⟨p, hp⟩ => ?_, fun ⟨n, hform⟩ => ?_⟩, fun n p hform hp => ?_⟩
    · obtain ⟨n, -, hparse, -⟩ := compile_eq_ok hp
      have hshaped := (h (by rw [hparse]; rfl)).mp (worded_of_compile hp)
      exact ⟨n, documentedForm_iff.mpr ⟨hshaped, hparse⟩⟩
    · obtain ⟨hshaped, hparse⟩ := documentedForm_iff.mp hform
      have hworded := (h (by rw [hparse]; rfl)).mpr hshaped
      exact compile_of_worded hworded hparse (hwat n hparse)
    · have hparse := (documentedForm_iff.mp hform).2
      exact mainReturns_of_compile hp hparse (hwat n hparse)

end Compiler

end Frontend

/-! ## 5. Three sources -/

namespace Sample

/-- The module with one constant below 64. -/
def constantModule (n : UInt8) : List UInt8 :=
  [0, 0x61, 0x73, 0x6d, 1, 0, 0, 0, 1, 5, 1, 0x60, 0, 1, 0x7f, 3, 2, 1, 0, 7, 8, 1, 4, 0x6d, 0x61,
    0x69, 0x6e, 0, 0, 0x0a, 6, 1, 4, 0, 0x41, n, 0x0b]

/-- Two modules are known. -/
def parseStr (text : String) : Except String (List UInt8) :=
  if text = Frontend.watSource 5 then .ok (constantModule 5)
  else if text = Frontend.watSource 7 then .ok (constantModule 7)
  else .error "unknown module"

def callConstant (wasm : List UInt8) (entrypoint : String) (gas : U64) :
    Except ProgramError (BitVec 32 × Option U64) :=
  if gas.toNat < 1 then .error (.runtime "all fuel consumed by WebAssembly")
  else if entrypoint = "main" ∧ wasm = constantModule 5 then .ok (5, some 1)
  else if entrypoint = "main" ∧ wasm = constantModule 7 then .ok (7, some 1)
  else .error (.missingEntrypoint entrypoint)

def constants : WasmRuntime :=
  { WasmRuntime.standIn with
    parseAll := fun _ => [.ok .other]
    validateAll := fun _ => .ok ()
    callEntrypoint := callConstant }

/-- The two modules are known and pass the checks. -/
theorem evaluated_modules :
    (parseStr (Frontend.watSource 5) = .ok (constantModule 5) ∧
      validateWasm constants (constantModule 5) "main" = .ok ()) ∧
    (parseStr (Frontend.watSource 7) = .ok (constantModule 7) ∧
      validateWasm constants (constantModule 7) "main" = .ok ()) := by
  decide +kernel

theorem assembles_five : Frontend.Assembles constants parseStr 5 := by
  refine ⟨constantModule 5, evaluated_modules.1.1, evaluated_modules.1.2, 1,
    fun gas hgas => ⟨some 1, ?_⟩⟩
  have hone : ¬ gas.toNat < 1 := Nat.not_lt.mpr hgas
  have hcall : callConstant (constantModule 5) "main" gas = .ok (5, some 1) := by
    unfold callConstant
    rw [if_neg hone, if_pos ⟨rfl, rfl⟩]
  exact hcall

theorem assembles_seven : Frontend.Assembles constants parseStr 7 := by
  refine ⟨constantModule 7, evaluated_modules.2.1, evaluated_modules.2.2, 1,
    fun gas hgas => ⟨some 1, ?_⟩⟩
  have hone : ¬ gas.toNat < 1 := Nat.not_lt.mpr hgas
  have hcall : callConstant (constantModule 7) "main" gas = .ok (7, some 1) := by
    unfold callConstant
    rw [if_neg hone, if_neg (by decide), if_pos ⟨rfl, rfl⟩]
  exact hcall

/-- A block in a comment stands in front of `main`. -/
def commented : String := "// \x7b 5 \x7d\nfn main() -> i32 \x7b 7 \x7d"

/-- The form without its white space. -/
def tight : String := "fn main()->i32\x7b7\x7d"

end Sample

namespace Frontend

open Text

theorem spaces_nil : Spaces [] := fun _ h => by cases h

theorem spaces_blank : Spaces [' '] := by
  intro c hc
  rw [List.mem_singleton.mp hc]
  decide

/-- What the compiler sees of the three sources. -/
theorem evaluated_sources :
    (trimmed "fn main() -> i32 \x7b 7 \x7d" =
        "fn main() -> i32 ".toList ++ '{' :: (" 7 ".toList ++ ['}']) ∧
      Worded (trimmed "fn main() -> i32 \x7b 7 \x7d")) ∧
    (trimmed Sample.tight = "fn main()->i32".toList ++ '{' :: ("7".toList ++ ['}']) ∧
      ¬ Worded (trimmed Sample.tight)) ∧
    (Worded (trimmed Sample.commented) ∧
      parseI32 (valueText (trimmed Sample.commented)) = some 5 ∧
      (splitOnce ['{'] (trimmed Sample.commented)).map Prod.fst = some "// ".toList) := by
  decide +kernel

theorem documented_seven : DocumentedForm (trimmed "fn main() -> i32 \x7b 7 \x7d") 7 := by
  refine ⟨"fn main() -> i32 ".toList, " 7 ".toList, ?_, Or.inl ?_, evaluated_sources.1.1⟩
  · exact ⟨[' '], [], [], [' '], [' '], [' '], spaces_blank, spaces_nil, spaces_nil, spaces_blank,
      spaces_blank, spaces_blank, by decide, by simp⟩
  · exact ⟨[' '], ['7'], [' '], [], [], spaces_blank, spaces_blank, spaces_nil, Or.inl rfl,
      by decide, by decide⟩

theorem documented_tight : DocumentedForm (trimmed Sample.tight) 7 := by
  refine ⟨"fn main()->i32".toList, "7".toList, ?_, Or.inl ?_, evaluated_sources.2.1.1⟩
  · exact ⟨[' '], [], [], [], [], [], spaces_blank, spaces_nil, spaces_nil, spaces_nil, spaces_nil,
      spaces_nil, by decide, by simp⟩
  · exact ⟨[], ['7'], [], [], [], spaces_nil, spaces_nil, spaces_nil, Or.inl rfl, by decide,
      by decide⟩

theorem compile_exact_seven :
    CompilesExactly .standIn Sample.constants Sample.parseStr "demo"
      "fn main() -> i32 \x7b 7 \x7d" := by
  have hparse : parseI32 (valueText (trimmed "fn main() -> i32 \x7b 7 \x7d")) = some 7 :=
    (documentedForm_iff.mp documented_seven).2
  refine (compile_exact_iff .standIn Sample.constants Sample.parseStr "demo" _ fun n hn => ?_).mpr
    fun _ => iff_of_true evaluated_sources.1.2 (documentedForm_iff.mp documented_seven).1
  rw [hparse] at hn
  cases hn
  exact Sample.assembles_seven

/-- **The literal of a comment is compiled, and the form without its white space is not.** -/
theorem sources_not_compiled_exactly :
    ¬ CompilesExactly .standIn Sample.constants Sample.parseStr "demo" Sample.commented ∧
    ¬ CompilesExactly .standIn Sample.constants Sample.parseStr "demo" Sample.tight := by
  obtain ⟨-, ⟨-, htight⟩, hworded, hparse, hfront⟩ := evaluated_sources
  constructor
  · intro h
    have hcompiled : ∃ p, compileRustSource .standIn Sample.constants Sample.parseStr "demo"
        Sample.commented = .ok p :=
      compile_of_worded hworded hparse Sample.assembles_five
    obtain ⟨n, hform⟩ := h.1.mp hcompiled
    obtain ⟨header, rest, hsplit, hheader, -⟩ := (documentedForm_iff.mp hform).1.header
    rw [hsplit] at hfront
    have hcomment : header = "// ".toList := Option.some.inj hfront
    obtain ⟨s₁, s₂, s₃, s₄, s₅, s₆, -, -, -, -, -, -, -, hwords⟩ := hheader
    rw [hcomment] at hwords
    exact absurd (List.cons.inj hwords).1 (by decide)
  · intro h
    obtain ⟨p, hp⟩ := h.1.mpr ⟨7, documented_tight⟩
    exact htight (worded_of_compile hp)

end Frontend

end WorldstreetChain
