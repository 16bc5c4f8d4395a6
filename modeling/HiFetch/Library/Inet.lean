import HiFetch.Library.Scanf

/-!
# Internet addresses

`inet_ntop` prints the four bytes of an address in the order in which they stand in memory.  The
address is a number whose lowest byte stands first.
-/

namespace HiFetch.Inet

open CString Scanf

/-- The point between two bytes. -/
def point : CString := ⟨[46], by decide⟩

/-- One of the four bytes of an address. -/
def byteOf (address : UInt32) (index : ℕ) : ℕ := address.toNat / 256 ^ index % 256

/-- `inet_ntop` -/
def inetNtop (address : UInt32) : CString :=
  ofInt (byteOf address 0) ++ (point ++ (ofInt (byteOf address 1) ++ (point ++
    (ofInt (byteOf address 2) ++ (point ++ ofInt (byteOf address 3))))))

example : inetNtop 16885952 = ofText "192.168.1.1" := by decide +kernel

theorem bytes_ofInt_natCast (number : ℕ) : (ofInt number).bytes = magnitude number := by
  rw [bytes_ofInt, if_neg (by omega), List.nil_append]

theorem ofInt_natCast_inj {first second : ℕ} (h : (ofInt first).bytes = (ofInt second).bytes) :
    first = second := by
  rw [bytes_ofInt_natCast, bytes_ofInt_natCast] at h
  have hvalue := congrArg (fun digits ↦ digitsValue digits 0) h
  simpa only [digitsValue_magnitude, Int.natAbs_natCast] using hvalue

/-- Numbers with points behind them are taken apart again. -/
theorem ofInt_append_inj {first second : ℕ} {back rest : CString}
    (h : ofInt first ++ (point ++ back) = ofInt second ++ (point ++ rest)) :
    first = second ∧ back = rest := by
  have hbytes : magnitude first ++ 46 :: back.bytes = magnitude second ++ 46 :: rest.bytes := by
    have hwhole := congrArg CString.bytes h
    simpa only [bytes_append, bytes_ofInt_natCast, point, List.singleton_append] using hwhole
  have hstop : ∀ tail : List UInt8, ∀ byte ∈ (46 :: tail).head?, ¬isDigit byte := by
    rintro tail _ ⟨⟩
    decide
  have htake := congrArg (List.takeWhile isDigit) hbytes
  have hdrop := congrArg (List.dropWhile isDigit) hbytes
  rw [takeWhile_append_of_head (fun _ ↦ isDigit_of_mem_magnitude) (hstop _),
    takeWhile_append_of_head (fun _ ↦ isDigit_of_mem_magnitude) (hstop _)] at htake
  rw [dropWhile_append_of_head (fun _ ↦ isDigit_of_mem_magnitude) (hstop _),
    dropWhile_append_of_head (fun _ ↦ isDigit_of_mem_magnitude) (hstop _)] at hdrop
  constructor
  · apply ofInt_natCast_inj
    rwa [bytes_ofInt_natCast, bytes_ofInt_natCast]
  · ext1
    exact (List.cons.inj hdrop).2

/-- Different addresses are printed differently. -/
theorem inetNtop_injective : Function.Injective inetNtop := by
  intro first second h
  obtain ⟨hzero, hback⟩ := ofInt_append_inj h
  obtain ⟨hone, hback⟩ := ofInt_append_inj hback
  obtain ⟨htwo, hback⟩ := ofInt_append_inj hback
  have hthree := ofInt_natCast_inj (congrArg CString.bytes hback)
  have hfirst := first.toNat_lt
  have hsecond := second.toNat_lt
  unfold byteOf at hzero hone htwo hthree
  rw [← UInt32.toNat_inj]
  omega

end HiFetch.Inet
