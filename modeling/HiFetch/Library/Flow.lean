import Mathlib.Data.List.Basic
import Mathlib.Tactic.SplitIfs

/-!
# Functions with loops over buffers

A function goes on from one statement to the next, or it returns early, or it leaves one of its
buffers, and then nothing is known of it.  A postcondition says where it may go on and what it may
return, and has a rule for each way of putting statements together: a sequence, and a counting loop
with an invariant.
-/

namespace HiFetch

variable {ρ σ τ : Type}

/-- What a statement does in a function with results of type `ρ`. -/
inductive Flow (ρ σ : Type) where
  | undefined
  | next (state : σ)
  | exit (result : ρ)
deriving DecidableEq

namespace Flow

instance : Monad (Flow ρ) where
  pure := .next
  bind flow rest :=
    match flow with
    | .undefined => .undefined
    | .next state => rest state
    | .exit result => .exit result

/-- The result of a whole function. -/
def run : Flow ρ ρ → Option ρ
  | .undefined => none
  | .next result => some result
  | .exit result => some result

/-- The rounds of a loop: as much fuel as rounds can come is enough. -/
def rounds (limit width : ℕ) (body : ℕ → σ → Flow ρ σ) : ℕ → ℕ → σ → Flow ρ σ
  | 0, _, state => .next state
  | fuel + 1, i, state =>
      if i < limit then do
        let state ← body i state
        rounds limit width body fuel (i + width) state
      else .next state

/-- `for (i = start; i < limit; i += width)` -/
def loop (start limit width : ℕ) (state : σ) (body : ℕ → σ → Flow ρ σ) : Flow ρ σ :=
  rounds limit width body (limit - start) start state

/-! ## Postconditions -/

/-- The statement is defined, and it goes on or returns as described. -/
def Ensures (flow : Flow ρ σ) (post : σ → Prop) (returned : ρ → Prop) : Prop :=
  match flow with
  | .undefined => False
  | .next state => post state
  | .exit result => returned result

variable {post : σ → Prop} {returned : ρ → Prop}

theorem Ensures.bind {flow : Flow ρ σ} {rest : σ → Flow ρ τ} {last : τ → Prop}
    (h : flow.Ensures post returned)
    (hrest : ∀ state, post state → (rest state).Ensures last returned) :
    (flow >>= rest).Ensures last returned := by
  cases flow with
  | undefined => exact h
  | next state => exact hrest state h
  | exit result => exact h

theorem Ensures.mono {flow : Flow ρ σ} {weaker : σ → Prop} {any : ρ → Prop}
    (h : flow.Ensures post returned) (hpost : ∀ state, post state → weaker state)
    (hreturned : ∀ result, returned result → any result) : flow.Ensures weaker any := by
  cases flow with
  | undefined => exact h
  | next state => exact hpost state h
  | exit result => exact hreturned result h

theorem ensures_eq_iff {flow : Flow ρ σ} {state : σ} :
    flow.Ensures (· = state) (fun _ ↦ False) ↔ flow = .next state := by
  cases flow <;> simp [Ensures]

theorem Ensures.run_eq {flow : Flow ρ ρ} {result : ρ} (h : flow.Ensures (· = result) (· = result)) :
    flow.run = some result := by
  cases flow with
  | undefined => exact h.elim
  | next last => exact congrArg some h
  | exit last => exact congrArg some h

/-- What one round keeps, the whole loop keeps. -/
theorem loop_ensures {start limit width : ℕ} {state : σ} {body : ℕ → σ → Flow ρ σ}
    (invariant : ℕ → σ → Prop) (hwidth : 0 < width) (hle : start ≤ limit)
    (hdvd : width ∣ limit - start)
    (hbody : ∀ i state, start ≤ i → i + width ≤ limit → invariant i state →
      (body i state).Ensures (invariant (i + width)) returned)
    (hstart : invariant start state) :
    (loop start limit width state body).Ensures (invariant limit) returned := by
  have hrounds : ∀ fuel i state, start ≤ i → i ≤ limit → width ∣ limit - i → limit - i ≤ fuel →
      invariant i state →
        (rounds limit width body fuel i state).Ensures (invariant limit) returned := by
    intro fuel
    induction fuel with
    | zero =>
      intro i state _ hi _ hfuel hinvariant
      obtain rfl : i = limit := by omega
      exact hinvariant
    | succ fuel ih =>
      intro i state hlow hi hwidths hfuel hinvariant
      unfold rounds
      split_ifs with hlt
      · have hfits : width ≤ limit - i := Nat.le_of_dvd (by omega) hwidths
        have hnext : width ∣ limit - (i + width) := by
          rw [← Nat.sub_sub]
          exact Nat.dvd_sub hwidths (Nat.dvd_refl width)
        refine (hbody i state hlow (by omega) hinvariant).bind fun state hstate ↦ ?_
        exact ih (i + width) state (by omega) (by omega) hnext (by omega) hstate
      · obtain rfl : i = limit := by omega
        exact hinvariant
  exact hrounds _ start state (Nat.le_refl _) hle hdvd (Nat.le_refl _) hstart

/-! ## Buffers -/

/-- A byte of a buffer. -/
def load (buffer : List UInt8) (i : ℕ) : Flow ρ UInt8 :=
  match buffer[i]? with
  | some byte => .next byte
  | none => .undefined

/-- Some bytes of a buffer. -/
def loadBytes (buffer : List UInt8) (i count : ℕ) : Flow ρ (List UInt8) :=
  if i + count ≤ buffer.length then .next ((buffer.drop i).take count) else .undefined

/-- The buffer with other bytes from a place on. -/
def storeBytes (buffer : List UInt8) (i : ℕ) (bytes : List UInt8) : Flow ρ (List UInt8) :=
  if i + bytes.length ≤ buffer.length then
    .next (buffer.take i ++ (bytes ++ buffer.drop (i + bytes.length)))
  else .undefined

/-- The buffer with another byte at a place. -/
def store (buffer : List UInt8) (i : ℕ) (byte : UInt8) : Flow ρ (List UInt8) :=
  storeBytes buffer i [byte]

theorem load_eq {buffer : List UInt8} {i : ℕ} (h : i < buffer.length) :
    (load buffer i : Flow ρ UInt8) = .next buffer[i] := by
  rw [load, List.getElem?_eq_getElem h]

theorem loadBytes_eq {buffer : List UInt8} {i count : ℕ} (h : i + count ≤ buffer.length) :
    (loadBytes buffer i count : Flow ρ (List UInt8)) = .next ((buffer.drop i).take count) := by
  rw [loadBytes, if_pos h]

theorem storeBytes_append {front back bytes : List UInt8} (h : bytes.length ≤ back.length) :
    (storeBytes (front ++ back) front.length bytes : Flow ρ (List UInt8)) =
      .next (front ++ (bytes ++ back.drop bytes.length)) := by
  have hroom : front.length + bytes.length ≤ (front ++ back).length := by
    rw [List.length_append]
    omega
  rw [storeBytes, if_pos hroom, List.take_left, List.drop_append, List.drop_of_length_le (by omega),
    List.nil_append, Nat.add_sub_cancel_left]

/-- A loop whose rounds store the parts of a text leaves the text at the start of the buffer, and
the rest of the buffer as it was. -/
theorem loop_fill {text buffer : List UInt8} {start limit width : ℕ}
    {body : ℕ → List UInt8 → Flow ρ (List UInt8)} (hwidth : 0 < width) (hle : start ≤ limit)
    (hdvd : width ∣ limit - start) (htext : limit ≤ text.length) (hbuffer : limit ≤ buffer.length)
    (hbody : ∀ i dest, i + width ≤ limit →
      body i dest = storeBytes dest i ((text.drop i).take width)) :
    loop start limit width (text.take start ++ buffer.drop start) body =
      .next (text.take limit ++ buffer.drop limit) := by
  rw [← ensures_eq_iff]
  refine loop_ensures (fun i dest ↦ dest = text.take i ++ buffer.drop i) hwidth hle hdvd ?_ rfl
  rintro i dest - hi rfl
  have hfront : (text.take i).length = i := List.length_take_of_le (by omega)
  have hpart : ((text.drop i).take width).length = width := by
    rw [List.length_take, List.length_drop]
    omega
  have hroom : ((text.drop i).take width).length ≤ (buffer.drop i).length := by
    rw [hpart, List.length_drop]
    omega
  have hstore : storeBytes (text.take i ++ buffer.drop i) i ((text.drop i).take width) =
      (.next (text.take (i + width) ++ buffer.drop (i + width)) : Flow ρ (List UInt8)) := by
    have happend := @storeBytes_append ρ (text.take i) _ _ hroom
    rwa [hfront, hpart, List.drop_drop, ← List.append_assoc, ← List.take_add] at happend
  rw [hbody i _ hi, hstore]
  rfl

end Flow

end HiFetch
