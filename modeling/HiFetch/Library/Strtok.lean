import HiFetch.Library.CString

/-!
# Tokens in a buffer

`strtok` skips delimiters, ends the token that follows them with a NUL and remembers where to go on.
One call after the other, it finds the pieces between the delimiters that are not empty.
-/

namespace HiFetch.Strtok

/-- What one call of `strtok` gives: the place of the token, the buffer, and where the next call
goes on. -/
structure Outcome where
  token : Option ℕ
  buffer : List UInt8
  next : ℕ

/-- `strtok` with one delimiter, from a place in a buffer on. -/
def strtok (buffer : List UInt8) (start : ℕ) (delimiter : UInt8) : Outcome :=
  let place := start + ((buffer.drop start).takeWhile (· == delimiter)).length
  let length :=
    ((buffer.drop place).takeWhile fun byte ↦ byte != 0 && byte != delimiter).length
  if length = 0 then ⟨none, buffer, place⟩
  else if buffer.getD (place + length) 0 = delimiter then
    ⟨some place, buffer.set (place + length) 0, place + length + 1⟩
  else ⟨some place, buffer, place + length⟩

/-- The pieces between delimiters that are not empty. -/
def pieces (delimiter : UInt8) (text : List UInt8) : List (List UInt8) :=
  (text.splitOn delimiter).filter (· ≠ [])

variable {delimiter : UInt8}

theorem pieces_nil : pieces delimiter [] = [] := rfl

theorem pieces_replicate_append (count : ℕ) (text : List UInt8) :
    pieces delimiter (List.replicate count delimiter ++ text) = pieces delimiter text := by
  induction count with
  | zero => rfl
  | succ count ih =>
    have hsplit := List.splitOn_append_cons_self (a := delimiter) []
      (List.replicate count delimiter ++ text)
    rw [List.replicate_succ, List.cons_append, pieces, ← List.nil_append (delimiter :: _), hsplit,
      List.splitOn_nil, List.singleton_append, List.filter_cons_of_neg (by simp), ← pieces, ih]

theorem pieces_self {piece : List UInt8} (hne : piece ≠ []) (hpiece : delimiter ∉ piece) :
    pieces delimiter piece = [piece] := by
  unfold pieces
  rw [List.splitOn_eq_singleton hpiece, List.filter_cons_of_pos (by simpa using hne),
    List.filter_nil]

theorem pieces_append_cons {piece : List UInt8} (hne : piece ≠ []) (hpiece : delimiter ∉ piece)
    (text : List UInt8) :
    pieces delimiter (piece ++ delimiter :: text) = piece :: pieces delimiter text := by
  unfold pieces
  rw [List.splitOn_append_cons_self_of_not_mem hpiece,
    List.filter_cons_of_pos (by simpa using hne)]

/-- A text of pieces, with the delimiter behind each. -/
def terminated (delimiter : UInt8) (pieces : List (List UInt8)) : List UInt8 :=
  pieces.flatMap fun piece ↦ piece ++ [delimiter]

theorem terminated_cons (delimiter : UInt8) (piece : List UInt8) (rest : List (List UInt8)) :
    terminated delimiter (piece :: rest) = piece ++ delimiter :: terminated delimiter rest := by
  unfold terminated
  rw [List.flatMap_cons, List.append_assoc, List.singleton_append]

theorem terminated_append (delimiter : UInt8) (first second : List (List UInt8)) :
    terminated delimiter (first ++ second) =
      terminated delimiter first ++ terminated delimiter second := List.flatMap_append

theorem pieces_terminated {lines : List (List UInt8)}
    (h : ∀ line ∈ lines, line ≠ [] ∧ delimiter ∉ line) (tail : List UInt8) :
    pieces delimiter (terminated delimiter lines ++ tail) = lines ++ pieces delimiter tail := by
  induction lines with
  | nil => rfl
  | cons line rest ih =>
    obtain ⟨hne, hline⟩ := h line List.mem_cons_self
    rw [terminated_cons, List.append_assoc, List.cons_append, pieces_append_cons hne hline,
      ih fun other hmem ↦ h other (List.mem_cons_of_mem _ hmem), List.cons_append]

theorem length_terminated_cons (delimiter : UInt8) (piece : List UInt8)
    (rest : List (List UInt8)) :
    (terminated delimiter (piece :: rest)).length =
      piece.length + 1 + (terminated delimiter rest).length := by
  rw [terminated_cons, List.length_append, List.length_cons]
  omega

/-- What is left of pieces when a text of them is cut. -/
def cut : ℕ → List (List UInt8) → List (List UInt8)
  | 0, _ => []
  | _ + 1, [] => []
  | last + 1, piece :: rest =>
      if last < piece.length then [piece.take (last + 1)]
      else piece :: cut (last - piece.length) rest

theorem cut_zero (lines : List (List UInt8)) : cut 0 lines = [] := by
  unfold cut
  rfl

theorem cut_nil (limit : ℕ) : cut limit [] = [] := by
  cases limit <;> rfl

/-- A text that is cut. -/
theorem pieces_take_terminated {lines : List (List UInt8)}
    (h : ∀ line ∈ lines, line ≠ [] ∧ delimiter ∉ line) (limit : ℕ) :
    pieces delimiter ((terminated delimiter lines).take limit) = cut limit lines := by
  induction lines generalizing limit with
  | nil =>
    rw [cut_nil]
    exact congrArg (pieces delimiter) List.take_nil
  | cons line rest ih =>
    cases limit with
    | zero => rw [cut_zero, List.take_zero, pieces_nil]
    | succ last =>
      obtain ⟨hne, hline⟩ := h line List.mem_cons_self
      have hrest := ih fun other hmem ↦ h other (List.mem_cons_of_mem _ hmem)
      rw [terminated_cons, cut]
      split_ifs with hinside
      · have hpos := List.length_pos_of_ne_nil hne
        rw [List.take_append_of_le_length hinside]
        apply pieces_self
        · exact List.ne_nil_of_length_pos (by rw [List.length_take]; omega)
        · exact fun hmem ↦ hline (List.mem_of_mem_take hmem)
      · have hsplit : last + 1 = (line ++ [delimiter]).length + (last - line.length) := by
          rw [List.length_append, List.length_singleton]
          omega
        rw [List.append_cons, hsplit, List.take_length_add_append, ← List.append_cons,
          pieces_append_cons hne hline, hrest]

/-- A cut behind the end of the text cuts nothing. -/
theorem cut_min {lines : List (List UInt8)} (h : ∀ line ∈ lines, line ≠ [] ∧ delimiter ∉ line)
    (limit : ℕ) : cut (min (terminated delimiter lines).length limit) lines = cut limit lines := by
  rw [← pieces_take_terminated h, ← pieces_take_terminated h, Nat.min_comm, ← List.take_take,
    List.take_length]

/-- The first pieces of a text are whole if there is room for them. -/
theorem cut_of_le {lines : List (List UInt8)} {limit count : ℕ}
    (h : (terminated delimiter (lines.take count)).length ≤ limit) :
    ∃ others, cut limit lines = lines.take count ++ others ∧
      (lines.length ≤ count → others = []) := by
  induction lines generalizing limit count with
  | nil => exact ⟨[], by rw [cut_nil, List.take_nil, List.append_nil], fun _ ↦ rfl⟩
  | cons line rest ih =>
    cases count with
    | zero => exact ⟨cut limit (line :: rest), rfl, fun hle ↦ absurd hle (by simp)⟩
    | succ count =>
      rw [List.take_succ_cons, length_terminated_cons] at h
      obtain ⟨last, rfl⟩ := Nat.exists_eq_add_one_of_ne_zero (show limit ≠ 0 by omega)
      have hroom : (terminated delimiter (rest.take count)).length ≤ last - line.length := by omega
      obtain ⟨others, hothers, hnone⟩ := ih hroom
      refine ⟨others, ?_, fun hle ↦ hnone (Nat.le_of_succ_le_succ hle)⟩
      rw [cut, if_neg (by omega), hothers, List.take_succ_cons, List.cons_append]

/-- The tokens of a string are its pieces. -/
theorem tokens_eq (text : CString) (delimiter : UInt8) :
    text.tokens delimiter = (pieces delimiter text.bytes).map CString.ofBuffer := by
  unfold CString.tokens pieces
  induction text.bytes.splitOn delimiter with
  | nil => rfl
  | cons piece rest ih => by_cases hempty : piece = [] <;> simp [hempty, ih]

/-- A text is delimiters only, or delimiters, a piece, and nothing or a delimiter and a text. -/
theorem exists_first_piece (delimiter : UInt8) (text : List UInt8) :
    ∃ count, text = List.replicate count delimiter ∨
      ∃ piece, piece ≠ [] ∧ delimiter ∉ piece ∧
        (text = List.replicate count delimiter ++ piece ∨
          ∃ rest, text = List.replicate count delimiter ++ (piece ++ delimiter :: rest)) := by
  induction text with
  | nil => exact ⟨0, .inl rfl⟩
  | cons byte text ih =>
    obtain ⟨count, ih⟩ := ih
    by_cases hbyte : byte = delimiter
    · subst hbyte
      refine ⟨count + 1, ?_⟩
      rcases ih with rfl | ⟨piece, hne, hpiece, rfl | ⟨rest, rfl⟩⟩
      · exact .inl rfl
      · exact .inr ⟨piece, hne, hpiece, .inl rfl⟩
      · exact .inr ⟨piece, hne, hpiece, .inr ⟨rest, rfl⟩⟩
    · refine ⟨0, .inr ?_⟩
      cases count with
      | zero =>
        have hmore : ∀ piece, delimiter ∉ piece → delimiter ∉ byte :: piece := by
          intro piece hpiece hmem
          rcases List.mem_cons.1 hmem with heq | hmem
          · exact hbyte heq.symm
          · exact hpiece hmem
        rcases ih with htext | ⟨piece, -, hpiece, htext | ⟨rest, htext⟩⟩
        · exact ⟨[byte], by simp, hmore [] (by simp), .inl (by rw [htext]; rfl)⟩
        · exact ⟨byte :: piece, by simp, hmore piece hpiece, .inl (by rw [htext]; rfl)⟩
        · exact ⟨byte :: piece, by simp, hmore piece hpiece, .inr ⟨rest, by rw [htext]; rfl⟩⟩
      | succ count =>
        have hsingle : delimiter ∉ [byte] := fun hmem ↦ hbyte (List.mem_singleton.1 hmem).symm
        rcases ih with rfl | ⟨piece, -, -, rfl | ⟨rest, rfl⟩⟩
        · exact ⟨[byte], by simp, hsingle, .inr ⟨_, rfl⟩⟩
        · exact ⟨[byte], by simp, hsingle, .inr ⟨_, rfl⟩⟩
        · exact ⟨[byte], by simp, hsingle, .inr ⟨_, rfl⟩⟩

/-! ## One call -/

/-- Delimiters, a part without delimiters and NULs, and a byte that ends it. -/
theorem strtok_eq (hdelimiter : delimiter ≠ 0) (front back piece : List UInt8) (count : ℕ)
    {stop : UInt8} (hpiece : delimiter ∉ piece) (hnul : 0 ∉ piece)
    (hstop : stop = 0 ∨ stop = delimiter ∧ piece ≠ []) :
    let before := front ++ List.replicate count delimiter
    strtok (front ++ (List.replicate count delimiter ++ (piece ++ stop :: back))) front.length
        delimiter =
      if piece = [] then ⟨none, before ++ (piece ++ stop :: back), before.length⟩
      else if stop = delimiter then
        ⟨some before.length, before ++ (piece ++ 0 :: back), before.length + piece.length + 1⟩
      else
        ⟨some before.length, before ++ (piece ++ stop :: back), before.length + piece.length⟩ := by
  intro before
  have hhead : ((piece ++ stop :: back).takeWhile (· == delimiter)) = [] := by
    cases piece with
    | nil =>
      have hzero : stop = 0 := hstop.resolve_right fun h ↦ h.2 rfl
      rw [List.nil_append, List.takeWhile_cons_of_neg]
      simpa [hzero] using hdelimiter.symm
    | cons byte piece =>
      rw [List.cons_append, List.takeWhile_cons_of_neg]
      simpa using fun heq : byte = delimiter ↦ hpiece (heq ▸ List.mem_cons_self)
  have hskipped : ((List.replicate count delimiter ++ (piece ++ stop :: back)).takeWhile
      (· == delimiter)).length = count := by
    rw [List.takeWhile_append_of_pos (by simp), hhead, List.append_nil, List.length_replicate]
  have hbuffer : front ++ (List.replicate count delimiter ++ (piece ++ stop :: back)) =
      before ++ (piece ++ stop :: back) := (List.append_assoc _ _ _).symm
  have hplace : front.length + count = before.length := by simp [before]
  have hpart : ((piece ++ stop :: back).takeWhile fun byte ↦ byte != 0 && byte != delimiter) =
      piece := by
    rw [CString.takeWhile_append_cons, List.takeWhile_eq_self_iff]
    · intro byte hmem
      simp only [Bool.and_eq_true, bne_iff_ne]
      exact ⟨fun h ↦ hnul (h ▸ hmem), fun h ↦ hpiece (h ▸ hmem)⟩
    · rcases hstop with rfl | ⟨rfl, -⟩ <;> simp
  unfold strtok
  dsimp only
  rw [List.drop_left, hskipped, hbuffer, hplace, List.drop_left, hpart]
  by_cases hempty : piece = []
  · rw [if_pos hempty, if_pos (by rw [hempty]; rfl)]
  have hlength : piece.length ≠ 0 := fun hzero ↦ hempty (List.length_eq_zero_iff.1 hzero)
  have hstopped : (before ++ (piece ++ stop :: back)).getD (before.length + piece.length) 0 =
      stop := by
    rw [← List.append_assoc, ← List.length_append]
    simp
  rw [if_neg hempty, if_neg hlength, hstopped]
  split_ifs
  · have hset : (before ++ (piece ++ stop :: back)).set (before.length + piece.length) 0 =
        before ++ (piece ++ 0 :: back) := by
      rw [List.set_append_right _ _ (by omega), Nat.add_sub_cancel_left,
        List.set_append_right _ _ le_rfl, Nat.sub_self, List.set_cons_zero]
    rw [hset]
  · rfl

/-- A call that finds the first piece of a text: a NUL ends the piece, and the next call goes on at
the start of the rest of the text. -/
structure Finds (delimiter : UInt8) (text back : List UInt8) (call : Outcome)
    (piece rest : List UInt8) where
  before : List UInt8
  behind : List UInt8
  skipped : List UInt8
  call_eq : call = ⟨some before.length, before ++ (piece ++ 0 :: behind),
    before.length + piece.length + skipped.length⟩
  behind_eq : 0 :: behind = skipped ++ (rest ++ 0 :: back)
  pieces_eq : pieces delimiter text = piece :: pieces delimiter rest
  ne_nil : piece ≠ []
  noNul : 0 ∉ piece
  noNul_rest : 0 ∉ rest

/-- `strtok` finds the first piece of the text that starts where it goes on. -/
theorem strtok_spec (hdelimiter : delimiter ≠ 0) (front back : List UInt8) {text : List UInt8}
    (hnul : 0 ∉ text) :
    (pieces delimiter text = [] ∧
      (strtok (front ++ (text ++ 0 :: back)) front.length delimiter).token = none) ∨
    ∃ piece rest, Nonempty (Finds delimiter text back
      (strtok (front ++ (text ++ 0 :: back)) front.length delimiter) piece rest) := by
  obtain ⟨count, htext | ⟨piece, hne, hpiece, htext | ⟨rest, htext⟩⟩⟩ :=
    exists_first_piece delimiter text
  · left
    have hcall := strtok_eq hdelimiter front back [] count (List.not_mem_nil) (List.not_mem_nil)
      (.inl rfl)
    rw [htext]
    refine ⟨?_, ?_⟩
    · rw [← List.append_nil (List.replicate count delimiter), pieces_replicate_append, pieces_nil]
    · dsimp only at hcall
      rw [if_pos rfl, List.nil_append] at hcall
      rw [hcall]
  · right
    have hpieceNul : 0 ∉ piece := fun hmem ↦ hnul (htext ▸ List.mem_append_right _ hmem)
    have hcall := strtok_eq hdelimiter front back piece count hpiece hpieceNul (.inl rfl)
    dsimp only at hcall
    rw [if_neg hne, if_neg (Ne.symm hdelimiter)] at hcall
    refine ⟨piece, [], ⟨front ++ List.replicate count delimiter, back, [], ?_, rfl, ?_, hne,
      hpieceNul, List.not_mem_nil⟩⟩
    · rw [htext, List.append_assoc, hcall]
      rfl
    · rw [htext, pieces_replicate_append, pieces_self hne hpiece, pieces_nil]
  · right
    have hpieceNul : 0 ∉ piece := fun hmem ↦
      hnul (htext ▸ List.mem_append_right _ (List.mem_append_left _ hmem))
    have hrestNul : 0 ∉ rest := fun hmem ↦
      hnul (htext ▸ List.mem_append_right _ (List.mem_append_right _ (List.mem_cons_of_mem _ hmem)))
    have hcall := strtok_eq hdelimiter front (rest ++ 0 :: back) piece count hpiece hpieceNul
      (.inr ⟨rfl, hne⟩)
    dsimp only at hcall
    rw [if_neg hne, if_pos rfl] at hcall
    refine ⟨piece, rest, ⟨front ++ List.replicate count delimiter, rest ++ 0 :: back, [0], ?_, rfl,
      ?_, hne, hpieceNul, hrestNul⟩⟩
    · rw [htext, List.append_assoc, List.append_assoc, List.cons_append, hcall]
      rfl
    · rw [htext, pieces_replicate_append, pieces_append_cons hne hpiece]

/-- After a piece has been overwritten in its place, the next call still finds the rest of the
text. -/
theorem Finds.next {text back piece rest : List UInt8} {call : Outcome}
    (h : Finds delimiter text back call piece rest) {overwritten : List UInt8}
    (hlength : overwritten.length = piece.length) :
    ∃ front : List UInt8,
      h.before ++ (overwritten ++ 0 :: h.behind) = front ++ (rest ++ 0 :: back) ∧
        call.next = front.length := by
  refine ⟨h.before ++ overwritten ++ h.skipped, ?_, ?_⟩
  · rw [h.behind_eq]
    simp only [List.append_assoc]
  · rw [List.length_append, List.length_append, hlength]
    exact congrArg Outcome.next h.call_eq

/-- Every call that finds a token goes on behind it. -/
theorem lt_next_of_token {buffer : List UInt8} {start place : ℕ}
    (h : (strtok buffer start delimiter).token = some place) :
    start < (strtok buffer start delimiter).next ∧ start < buffer.length ∧
      (strtok buffer start delimiter).buffer.length = buffer.length := by
  unfold strtok at h ⊢
  dsimp only at h ⊢
  generalize hskip : ((buffer.drop start).takeWhile (· == delimiter)).length = skip at h ⊢
  generalize hpart : ((buffer.drop (start + skip)).takeWhile fun byte ↦
    byte != 0 && byte != delimiter).length = part at h ⊢
  have hinside : part ≤ buffer.length - (start + skip) := by
    rw [← hpart, ← List.length_drop]
    exact (List.takeWhile_prefix _).length_le
  split_ifs at h ⊢ with hpos hstop
  · exact ⟨by dsimp only; omega, by omega, List.length_set⟩
  · exact ⟨by dsimp only; omega, by omega, rfl⟩

end HiFetch.Strtok
