import Mathlib.Data.List.Basic
import Mathlib.Tactic.SplitIfs

/-!
# Words of a shell command

The token recognition of the POSIX shell.  A command is read byte by byte: blanks end a word,
operators are tokens of their own, quotes and backslashes change the mode, and a number sign at the
start of a word begins a comment.  Tokens keep the quotes, which are removed later, and every byte
carries a mark that says what the later steps make of it.  Commands with parameter or command
substitutions are not recognized further.

A text is an argument of its own if it adds one word to the words of a command, with every byte
standing for itself, and changes no other token.  It is one exactly when it is not empty and has no
special byte.
-/

namespace HiFetch.Shell

/-- What later steps make of a byte: it stands for itself, as it is or because it is quoted, it
takes part in an expansion, or it is a quote that is removed. -/
inductive Mark where
  | plain
  | quoted
  | expanded
  | delimiter
deriving DecidableEq

structure Symbol where
  byte : UInt8
  mark : Mark
deriving DecidableEq

/-- Operators are given byte by byte. -/
inductive Token where
  | word (symbols : List Symbol)
  | ioNumber (symbols : List Symbol)
  | operator (byte : UInt8)
deriving DecidableEq

inductive Mode where
  | unquoted
  | escaped
  | single
  | double
  | doubleEscaped
  | comment
deriving DecidableEq

/-- The word that has been begun, and the mode. -/
structure Lexer where
  word : List Symbol
  mode : Mode
deriving DecidableEq

/-! ## Bytes -/

/-- Space and tab. -/
def isBlank (byte : UInt8) : Bool := byte == 32 || byte == 9

/-- `<` and `>`. -/
def isRedirection (byte : UInt8) : Bool := byte == 60 || byte == 62

/-- A line break, `&`, `(`, `)`, `;`, `|`, `<` and `>`. -/
def isOperator (byte : UInt8) : Bool :=
  byte == 10 || byte == 38 || byte == 40 || byte == 41 || byte == 59 || byte == 124 ||
    isRedirection byte

/-- `$` and the backquote. -/
def isSubstitution (byte : UInt8) : Bool := byte == 36 || byte == 96

/-- `*`, `?` and `[`. -/
def isPattern (byte : UInt8) : Bool := byte == 42 || byte == 63 || byte == 91

/-- The two quotes and the backslash. -/
def isQuote (byte : UInt8) : Bool := byte == 34 || byte == 39 || byte == 92

def isOrdinary (byte : UInt8) : Bool :=
  !(isBlank byte || isOperator byte || isQuote byte || isSubstitution byte || isPattern byte)

/-- `#` and `~`, which are special at the start of a word. -/
def isOpening (byte : UInt8) : Bool := byte == 35 || byte == 126

/-- A text that is not empty and has no special byte. -/
structure Ordinary (text : List UInt8) : Prop where
  ne_nil : text ≠ []
  ordinary : ∀ byte ∈ text, isOrdinary byte
  opening : ∀ byte ∈ text.head?, isOpening byte = false

/-! ## Token recognition -/

/-- The word that has been begun ends. -/
def endWord (symbols : List Symbol) : List Token :=
  if symbols = [] then [] else [.word symbols]

def isNumber (symbols : List Symbol) : Bool :=
  symbols != [] && symbols.all fun symbol ↦
    symbol.mark == .plain && 48 ≤ symbol.byte && symbol.byte ≤ 57

/-- It ends before an operator; digits before `<` or `>` are the number of a file. -/
def endBefore (operator : UInt8) (symbols : List Symbol) : List Token :=
  if isRedirection operator && isNumber symbols then [.ioNumber symbols] else endWord symbols

namespace Lexer

def start : Lexer := ⟨[], .unquoted⟩

/-- The word goes on, and the mode is set. -/
def push (lexer : Lexer) (mode : Mode) (symbols : List Symbol) : List Token × Lexer :=
  ([], ⟨lexer.word ++ symbols, mode⟩)

def nextUnquoted (lexer : Lexer) (byte : UInt8) : Option (List Token × Lexer) :=
  if isBlank byte then some (endWord lexer.word, start)
  else if isOperator byte then some (endBefore byte lexer.word ++ [.operator byte], start)
  else if byte = 39 then some (lexer.push .single [⟨byte, .delimiter⟩])
  else if byte = 34 then some (lexer.push .double [⟨byte, .delimiter⟩])
  else if byte = 92 then some ([], ⟨lexer.word, .escaped⟩)
  else if isSubstitution byte then none
  else if byte = 35 ∧ lexer.word = [] then some ([], ⟨[], .comment⟩)
  else if isPattern byte ∨ (byte = 126 ∧ lexer.word = []) then
    some (lexer.push .unquoted [⟨byte, .expanded⟩])
  else some (lexer.push .unquoted [⟨byte, .plain⟩])

/-- The tokens that a byte completes, and the lexer behind it.  A backslash before a line break
joins two lines. -/
def next (lexer : Lexer) (byte : UInt8) : Option (List Token × Lexer) :=
  match lexer.mode with
  | .unquoted => lexer.nextUnquoted byte
  | .escaped =>
      if byte = 10 then some ([], ⟨lexer.word, .unquoted⟩)
      else some (lexer.push .unquoted [⟨92, .delimiter⟩, ⟨byte, .quoted⟩])
  | .single =>
      if byte = 39 then some (lexer.push .unquoted [⟨byte, .delimiter⟩])
      else some (lexer.push .single [⟨byte, .quoted⟩])
  | .double =>
      if byte = 34 then some (lexer.push .unquoted [⟨byte, .delimiter⟩])
      else if byte = 92 then some ([], ⟨lexer.word, .doubleEscaped⟩)
      else if isSubstitution byte then none
      else some (lexer.push .double [⟨byte, .quoted⟩])
  | .doubleEscaped =>
      if byte = 10 then some ([], ⟨lexer.word, .double⟩)
      else if byte = 34 ∨ byte = 92 ∨ isSubstitution byte then
        some (lexer.push .double [⟨92, .delimiter⟩, ⟨byte, .quoted⟩])
      else some (lexer.push .double [⟨92, .quoted⟩, ⟨byte, .quoted⟩])
  | .comment =>
      if byte = 10 then some ([.operator byte], start) else some ([], lexer)

/-- The tokens that some bytes complete. -/
def feed : Lexer → List UInt8 → Option (List Token × Lexer)
  | lexer, [] => some ([], lexer)
  | lexer, byte :: rest =>
      (lexer.next byte).bind fun first ↦
        (first.2.feed rest).map fun second ↦ (first.1 ++ second.1, second.2)

/-- What is left at the end of the command; an open quote is an error. -/
def close (lexer : Lexer) : Option (List Token) :=
  match lexer.mode with
  | .unquoted | .comment => some (endWord lexer.word)
  | _ => none

/-- The tokens of the rest of a command. -/
def recognize (lexer : Lexer) (bytes : List UInt8) : Option (List Token) :=
  (lexer.feed bytes).bind fun result ↦ result.2.close.map fun last ↦ result.1 ++ last

end Lexer

/-- The tokens of a command. -/
def lex (command : List UInt8) : Option (List Token) := Lexer.start.recognize command

/-- A word whose bytes stand for themselves. -/
def plainWord (text : List UInt8) : List Symbol := text.map fun byte ↦ ⟨byte, .plain⟩

/-- The command has the words of its fixed parts, and between them the text as a word. -/
def SingleArgument (before text after command : List UInt8) : Prop :=
  ∃ first second, lex before = some first ∧ lex after = some second ∧
    lex command = some (first ++ .word (plainWord text) :: second)

/-! ## Recognized words -/

/-- What is plain in a word is ordinary, and does not open a comment or an expansion. -/
structure SoundWord (symbols : List Symbol) : Prop where
  ordinary : ∀ symbol ∈ symbols, symbol.mark = .plain → isOrdinary symbol.byte
  opening : ∀ symbol ∈ symbols.head?, symbol.mark = .plain → isOpening symbol.byte = false

def SoundTokens (tokens : List Token) : Prop :=
  ∀ symbols, .word symbols ∈ tokens → symbols ≠ [] ∧ SoundWord symbols

theorem soundWord_nil : SoundWord [] := ⟨fun _ h ↦ (nomatch h), fun _ h ↦ (nomatch h)⟩

theorem soundWord_plainWord_iff {text : List UInt8} :
    plainWord text ≠ [] ∧ SoundWord (plainWord text) ↔ Ordinary text := by
  have hhead : (plainWord text).head? = text.head?.map fun byte ↦ ⟨byte, .plain⟩ := List.head?_map
  constructor
  · rintro ⟨hne, hordinary, hopening⟩
    refine ⟨fun hnil ↦ hne (hnil ▸ rfl), fun byte hbyte ↦ ?_, fun byte hbyte ↦ ?_⟩
    · exact hordinary ⟨byte, .plain⟩ (List.mem_map_of_mem hbyte) rfl
    · exact hopening ⟨byte, .plain⟩ (hhead ▸ Option.mem_map_of_mem _ hbyte) rfl
  · rintro ⟨hne, hordinary, hopening⟩
    refine ⟨fun hnil ↦ hne (List.map_eq_nil_iff.1 hnil), ?_, ?_⟩
    · intro symbol hsymbol _
      obtain ⟨byte, hbyte, rfl⟩ := List.mem_map.1 hsymbol
      exact hordinary byte hbyte
    · intro symbol hsymbol _
      rw [hhead] at hsymbol
      obtain ⟨byte, hbyte, rfl⟩ := Option.map_eq_some_iff.1 hsymbol
      exact hopening byte hbyte

/-- A word stays sound when symbols are added that are not plain. -/
theorem SoundWord.append {symbols added : List Symbol} (h : SoundWord symbols)
    (hadded : ∀ symbol ∈ added, symbol.mark ≠ .plain) : SoundWord (symbols ++ added) := by
  constructor
  · intro symbol hsymbol hplain
    rcases List.mem_append.1 hsymbol with hold | hnew
    · exact h.ordinary symbol hold hplain
    · exact absurd hplain (hadded symbol hnew)
  · intro symbol hsymbol hplain
    rw [List.head?_append, Option.mem_def, Option.or_eq_some_iff] at hsymbol
    rcases hsymbol with hold | ⟨-, hnew⟩
    · exact h.opening symbol hold hplain
    · exact absurd hplain (hadded symbol (List.mem_of_mem_head? hnew))

theorem SoundWord.append_plain {symbols : List Symbol} {byte : UInt8} (h : SoundWord symbols)
    (hordinary : isOrdinary byte) (hopening : symbols = [] → isOpening byte = false) :
    SoundWord (symbols ++ [⟨byte, .plain⟩]) := by
  constructor
  · intro symbol hsymbol hplain
    rcases List.mem_append.1 hsymbol with hold | hnew
    · exact h.ordinary symbol hold hplain
    · obtain rfl := List.mem_singleton.1 hnew
      exact hordinary
  · intro symbol hsymbol hplain
    cases symbols with
    | nil =>
      cases hsymbol
      exact hopening rfl
    | cons first rest => exact h.opening symbol hsymbol hplain

theorem soundTokens_nil : SoundTokens [] := fun _ h ↦ (nomatch h)

theorem SoundTokens.append {first second : List Token} (hfirst : SoundTokens first)
    (hsecond : SoundTokens second) : SoundTokens (first ++ second) := by
  intro symbols hmem
  rcases List.mem_append.1 hmem with hleft | hright
  · exact hfirst symbols hleft
  · exact hsecond symbols hright

theorem soundTokens_operator (byte : UInt8) : SoundTokens [.operator byte] := by
  intro symbols hmem
  cases List.mem_singleton.1 hmem

theorem SoundWord.endWord {symbols : List Symbol} (h : SoundWord symbols) :
    SoundTokens (endWord symbols) := by
  unfold Shell.endWord
  split_ifs with hnil
  · exact soundTokens_nil
  · intro other hmem
    cases List.mem_singleton.1 hmem
    exact ⟨hnil, h⟩

theorem SoundWord.endBefore {symbols : List Symbol} (h : SoundWord symbols) (operator : UInt8) :
    SoundTokens (endBefore operator symbols) := by
  unfold Shell.endBefore
  split_ifs
  · intro other hmem
    cases List.mem_singleton.1 hmem
  · exact h.endWord

namespace Lexer

/-- What holds behind a byte: the completed tokens and the word are sound. -/
def Sound (result : List Token × Lexer) : Prop := SoundTokens result.1 ∧ SoundWord result.2.word

theorem sound_push {lexer : Lexer} (h : SoundWord lexer.word) (mode : Mode) {symbols : List Symbol}
    (hadded : ∀ symbol ∈ symbols, symbol.mark ≠ .plain) : Sound (lexer.push mode symbols) :=
  ⟨soundTokens_nil, h.append hadded⟩

theorem sound_nextUnquoted {lexer : Lexer} (h : SoundWord lexer.word) {byte : UInt8}
    {result : List Token × Lexer} (hnext : lexer.nextUnquoted byte = some result) :
    Sound result := by
  unfold nextUnquoted at hnext
  split_ifs at hnext with hblank hoperator hsingle hdouble hescape hsubstitution hcomment hpattern
  all_goals cases hnext
  · exact ⟨h.endWord, soundWord_nil⟩
  · exact ⟨(h.endBefore byte).append (soundTokens_operator byte), soundWord_nil⟩
  · exact sound_push h .single (by simp)
  · exact sound_push h .double (by simp)
  · exact ⟨soundTokens_nil, h⟩
  · exact ⟨soundTokens_nil, soundWord_nil⟩
  · exact sound_push h .unquoted (by simp)
  · refine ⟨soundTokens_nil, h.append_plain ?_ fun hnil ↦ ?_⟩
    · simp_all [isOrdinary, isQuote]
    · simp_all [isOpening]

theorem sound_next {lexer : Lexer} (h : SoundWord lexer.word) {byte : UInt8}
    {result : List Token × Lexer} (hnext : lexer.next byte = some result) : Sound result := by
  obtain ⟨word, mode⟩ := lexer
  cases mode with
  | unquoted => exact sound_nextUnquoted h hnext
  | escaped =>
    unfold next at hnext
    dsimp only at hnext
    split_ifs at hnext <;> cases hnext
    · exact ⟨soundTokens_nil, h⟩
    · exact sound_push h .unquoted (by simp)
  | single =>
    unfold next at hnext
    dsimp only at hnext
    split_ifs at hnext <;> cases hnext
    · exact sound_push h .unquoted (by simp)
    · exact sound_push h .single (by simp)
  | double =>
    unfold next at hnext
    dsimp only at hnext
    split_ifs at hnext <;> cases hnext
    · exact sound_push h .unquoted (by simp)
    · exact ⟨soundTokens_nil, h⟩
    · exact sound_push h .double (by simp)
  | doubleEscaped =>
    unfold next at hnext
    dsimp only at hnext
    split_ifs at hnext <;> cases hnext
    · exact ⟨soundTokens_nil, h⟩
    · exact sound_push h .double (by simp)
    · exact sound_push h .double (by simp)
  | comment =>
    unfold next at hnext
    dsimp only at hnext
    split_ifs at hnext <;> cases hnext
    · exact ⟨soundTokens_operator byte, soundWord_nil⟩
    · exact ⟨soundTokens_nil, h⟩

/-- The recognized words of a command are sound. -/
theorem sound_feed {bytes : List UInt8} {lexer : Lexer} (h : SoundWord lexer.word)
    {result : List Token × Lexer} (hfeed : lexer.feed bytes = some result) : Sound result := by
  induction bytes generalizing lexer result with
  | nil =>
    cases hfeed
    exact ⟨soundTokens_nil, h⟩
  | cons byte rest ih =>
    obtain ⟨first, hfirst, hrest⟩ := Option.bind_eq_some_iff.1 hfeed
    obtain ⟨second, hsecond, rfl⟩ := Option.map_eq_some_iff.1 hrest
    have hnext := sound_next h hfirst
    have hlast := ih hnext.2 hsecond
    exact ⟨hnext.1.append hlast.1, hlast.2⟩

theorem sound_close {lexer : Lexer} (h : SoundWord lexer.word) {tokens : List Token}
    (hclose : lexer.close = some tokens) : SoundTokens tokens := by
  unfold close at hclose
  split at hclose <;> cases hclose <;> exact h.endWord

end Lexer

theorem soundTokens_lex {command : List UInt8} {tokens : List Token}
    (h : lex command = some tokens) : SoundTokens tokens := by
  obtain ⟨result, hfeed, hrest⟩ := Option.bind_eq_some_iff.1 h
  obtain ⟨last, hclose, rfl⟩ := Option.map_eq_some_iff.1 hrest
  have hsound := Lexer.sound_feed soundWord_nil hfeed
  exact hsound.1.append (Lexer.sound_close hsound.2 hclose)

/-- A text that is a word with every byte standing for itself has no special byte. -/
theorem SingleArgument.ordinary {before text after command : List UInt8}
    (h : SingleArgument before text after command) : Ordinary text := by
  obtain ⟨first, second, -, -, hcommand⟩ := h
  exact soundWord_plainWord_iff.1
    (soundTokens_lex hcommand (plainWord text) (by simp))

/-! ## Ordinary texts -/

namespace Lexer

theorem feed_append (lexer : Lexer) (front back : List UInt8) :
    lexer.feed (front ++ back) = (lexer.feed front).bind fun first ↦
      (first.2.feed back).map fun second ↦ (first.1 ++ second.1, second.2) := by
  induction front generalizing lexer with
  | nil => simp [feed]
  | cons byte rest ih =>
    rw [List.cons_append, feed, feed]
    cases lexer.next byte with
    | none => rfl
    | some first =>
      rw [Option.bind_some, Option.bind_some, ih]
      cases first.2.feed rest with
      | none => rfl
      | some second =>
        rw [Option.bind_some, Option.map_some, Option.bind_some, Option.map_map]
        congr 1
        funext third
        simp [List.append_assoc]

/-- An ordinary byte goes on with a word. -/
theorem next_ordinary {word : List Symbol} {byte : UInt8} (hordinary : isOrdinary byte)
    (hopening : word = [] → isOpening byte = false) :
    next ⟨word, .unquoted⟩ byte = some ([], ⟨word ++ [⟨byte, .plain⟩], .unquoted⟩) := by
  unfold isOrdinary at hordinary
  simp only [Bool.not_eq_true', Bool.or_eq_false_iff] at hordinary
  obtain ⟨⟨⟨⟨hblank, hoperator⟩, hquote⟩, hsubstitution⟩, hpattern⟩ := hordinary
  simp only [isQuote, Bool.or_eq_false_iff, beq_eq_false_iff_ne] at hquote
  have hcomment : ¬(byte = 35 ∧ word = []) := by
    rintro ⟨rfl, hnil⟩
    exact absurd (hopening hnil) (by decide)
  have htilde : ¬(byte = 126 ∧ word = []) := by
    rintro ⟨rfl, hnil⟩
    exact absurd (hopening hnil) (by decide)
  show nextUnquoted ⟨word, .unquoted⟩ byte = _
  unfold nextUnquoted
  simp only [hblank, hoperator, hquote, hsubstitution, hpattern, hcomment, htilde, reduceIte,
    Bool.false_eq_true, or_self, push]

theorem feed_ordinary {text : List UInt8} (h : ∀ byte ∈ text, isOrdinary byte)
    {word : List Symbol} (hopening : word = [] → ∀ byte ∈ text.head?, isOpening byte = false) :
    feed ⟨word, .unquoted⟩ text = some ([], ⟨word ++ plainWord text, .unquoted⟩) := by
  induction text generalizing word with
  | nil => simp [feed, plainWord]
  | cons byte rest ih =>
    have hnext := next_ordinary (h byte List.mem_cons_self) fun hnil ↦ hopening hnil byte rfl
    have hrest : feed ⟨word ++ [⟨byte, .plain⟩], .unquoted⟩ rest =
        some ([], ⟨word ++ [⟨byte, .plain⟩] ++ plainWord rest, .unquoted⟩) := by
      apply ih fun other hother ↦ h other (List.mem_cons_of_mem _ hother)
      simp
    unfold feed
    rw [hnext, Option.bind_some, hrest, Option.map_some, List.append_assoc]
    rfl

theorem recognize_append {lexer middle : Lexer} {front : List UInt8} {first : List Token}
    (hfront : lexer.feed front = some (first, middle)) (back : List UInt8) :
    lexer.recognize (front ++ back) = (middle.recognize back).map fun second ↦ first ++ second := by
  unfold recognize
  rw [feed_append, hfront, Option.bind_some]
  cases middle.feed back with
  | none => rfl
  | some result =>
    rw [Option.map_some, Option.bind_some, Option.bind_some, Option.map_map]
    congr 1
    funext last
    exact List.append_assoc first result.1 last

/-- A blank ends the word. -/
theorem recognize_blank (symbols : List Symbol) (rest : List UInt8) :
    recognize ⟨symbols, .unquoted⟩ (32 :: rest) =
      (lex rest).map fun second ↦ endWord symbols ++ second := by
  have hfeed : feed ⟨symbols, .unquoted⟩ [32] = some (endWord symbols, start) := by
    show some (endWord symbols ++ [], start) = _
    rw [List.append_nil]
  exact recognize_append hfeed rest

end Lexer

/-- An ordinary text is an argument of its own, where it stands between blanks. -/
theorem singleArgument_of_ordinary {before text after : List UInt8} {first second : List Token}
    (hbefore : Lexer.start.feed before = some (first, Lexer.start))
    (hafter : lex after = some second) (h : Ordinary text) :
    SingleArgument before text (32 :: after) (before ++ text ++ 32 :: after) := by
  have htext : Lexer.start.feed text = some ([], ⟨plainWord text, .unquoted⟩) :=
    Lexer.feed_ordinary h.ordinary fun _ ↦ h.opening
  have hword : endWord (plainWord text) = [.word (plainWord text)] :=
    if_neg (soundWord_plainWord_iff.2 h).1
  refine ⟨first, second, ?_, ?_, ?_⟩
  · have hnil := Lexer.recognize_append hbefore []
    rw [List.append_nil] at hnil
    unfold lex
    rw [hnil]
    exact congrArg some (List.append_nil first)
  · unfold lex
    rw [Lexer.start, Lexer.recognize_blank, hafter]
    rfl
  · rw [lex, List.append_assoc, Lexer.recognize_append hbefore, Lexer.recognize_append htext,
      Lexer.recognize_blank, hafter, hword]
    rfl

/-- A text between blanks is an argument of its own exactly when it is ordinary. -/
theorem singleArgument_iff_ordinary {before text after : List UInt8} {first second : List Token}
    (hbefore : Lexer.start.feed before = some (first, Lexer.start))
    (hafter : lex after = some second) :
    SingleArgument before text (32 :: after) (before ++ text ++ 32 :: after) ↔ Ordinary text :=
  ⟨SingleArgument.ordinary, singleArgument_of_ordinary hbefore hafter⟩

end HiFetch.Shell
