import HiFetch.Library.Scanf
import HiFetch.Library.Transition
import Mathlib.Algebra.Order.Archimedean.Basic
import Mathlib.Algebra.Order.Floor.Ring
import Mathlib.Data.Fin.VecNotation
import Mathlib.Data.Rat.Floor
import Mathlib.Logic.Function.Basic

/-!
# Disk and network rates

`get_io_performance` and `get_network_performance` turn counters into rates.  Both keep the counters
of the last call in static arrays whose index is the place of a device in the output, and the time
of the last call in a static variable that is set again for every line.  So a rate is that of the
device only where its place is the first one in both calls: for the other lines the time has just
been set, and at another place the saved counters belong to another device.

One definition with parameters covers both functions.  Times are exact numbers of seconds.
-/

namespace HiFetch.Performance

open CString Scanf Transition

/-- The four counters of a device that are turned into rates. -/
abbrev Counters := Fin 4 → UInt64

/-- A line that is listed: the name as it stands in the line, the name that is shown, the counters,
and the values that are shown as they are. -/
structure Entry (Gauges : Type) where
  device : CString
  shown : CString
  counters : Counters
  gauges : Gauges

/-- The lines of a file that are listed, and the factors of the rates. -/
structure Source (Gauges : Type) where
  entries : CString → List (Entry Gauges)
  scale : Counters

/-- The static arrays, by place, and the static time. -/
structure Statics where
  prev : ℕ → Counters
  prevTime : ℚ

def initialStatics : Statics := ⟨fun _ _ ↦ 0, 0⟩

/-- A row of the output.  Rates are not assigned before the static time is positive. -/
structure Output (Gauges : Type) where
  shown : CString
  rates : Option (Fin 4 → Option ℕ)
  gauges : Gauges

/-- One call: the text that `read_file_fast` leaves, if it succeeds, and the clock reading for the
line at each place. -/
structure CallInput where
  file : Option CString
  clock : ℕ → ℚ

/-- The difference of two counters, times the factor, by the elapsed time, cut to an integer.
There is no integer for the infinity or the negative number of an interval that is not positive.
That the integer has to fit into a `size_t` is left out. -/
def rate (scale before after : UInt64) (timeDiff : ℚ) : Option ℕ :=
  if 0 < timeDiff then some ⌊(((after - before) * scale).toNat : ℚ) / timeDiff⌋₊ else none

variable {Gauges : Type}

/-- What a line at a place gives its caller. -/
def outputRow (scale : Counters) (clock : ℕ → ℚ) (count : ℕ) (statics : Statics)
    (entry : Entry Gauges) : Output Gauges where
  shown := entry.shown
  rates :=
    if 0 < statics.prevTime then
      some fun counter ↦ rate (scale counter) (statics.prev count counter)
        (entry.counters counter) (clock count - statics.prevTime)
    else none
  gauges := entry.gauges

/-- What it leaves in the static variables. -/
def saveLine (clock : ℕ → ℚ) (count : ℕ) (statics : Statics) (entry : Entry Gauges) : Statics where
  prev := Function.update statics.prev count entry.counters
  prevTime := clock count

/-- The loop over the lines, from place `count` on. -/
def account (scale : Counters) (clock : ℕ → ℚ) :
    ℕ → Statics → List (Entry Gauges) → Statics × List (Output Gauges)
  | _, statics, [] => (statics, [])
  | count, statics, entry :: rest =>
      if count < 16 then
        let next := account scale clock (count + 1) (saveLine clock count statics entry) rest
        (next.1, outputRow scale clock count statics entry :: next.2)
      else (statics, [])

/-- The common part of both functions. -/
def measure (source : Source Gauges) (statics : Statics) (input : CallInput) :
    Statics × List (Output Gauges) :=
  match input.file with
  | none => (statics, [])
  | some text => account source.scale input.clock 0 statics (source.entries text)

/-! ## Disks -/

structure IoGauges where
  utilization : ℚ
  avgWaitTime : ℚ

/-- `%d %d %31s %lu %lu %lu %lu %lu %lu %lu %lu %lu %lu %lu` -/
def ioFormat : List Directive :=
  [.convert (.signed 32) true, .blank, .convert (.signed 32) true, .blank,
    .convert (.word 31) true] ++ numbers (List.replicate 11 (.unsigned 64, true))

/-- The fourteen targets. -/
def ioEntry : List Value → Option (Entry IoGauges)
  | [.integer _, .integer _, .text device, .integer reads, .integer _, .integer readSectors,
      .integer _, .integer writes, .integer _, .integer writeSectors, .integer _, .integer _,
      .integer totalTime, .integer weightedTime] =>
      let reads := UInt64.ofNat reads.toNat
      let writes := UInt64.ofNat writes.toNat
      if 0 < reads ∨ 0 < writes then
        some
          { device := device
            shown := device
            counters := ![reads, writes, .ofNat readSectors.toNat, .ofNat writeSectors.toNat]
            gauges :=
              { utilization := if 0 < totalTime then totalTime / 10 else 0
                avgWaitTime :=
                  if 0 < reads + writes then weightedTime / (reads + writes).toNat else 0 } }
      else none
  | _ => none

/-- `/proc/diskstats`; sectors are counted in bytes. -/
def diskstats : Source IoGauges where
  entries := fun text ↦ (tokens text 10).filterMap fun line ↦ ioEntry (sscanf ioFormat line.bytes)
  scale := ![1, 1, 512, 512]

def getIoPerformance (statics : Statics) (input : CallInput) : Statics × List (Output IoGauges) :=
  measure diskstats statics input

/-! ## Networks -/

/-- The sums of errors and of drops; the last target may stay unassigned. -/
structure NetworkGauges where
  errorsPerSec : UInt64
  dropsPerSec : Option UInt64

/-- `%31[^:]: %lu %lu %lu %lu %*lu %*lu %*lu %*lu %lu %lu %lu %lu` -/
def networkFormat : List Directive :=
  [.convert (.span 31 58) true, .literal 58] ++
    numbers (List.replicate 4 (.unsigned 64, true) ++ List.replicate 4 (.unsigned 64, false) ++
      List.replicate 4 (.unsigned 64, true))

/-- At least eight of the nine targets.  The name is cut at its first blank. -/
def networkEntry : List Value → Option (Entry NetworkGauges)
  | .text interface :: .integer rxBytes :: .integer rxPackets :: .integer rxErrs ::
      .integer rxDrop :: .integer txBytes :: .integer txPackets :: .integer txErrs :: rest =>
      let rxBytes := UInt64.ofNat rxBytes.toNat
      let txBytes := UInt64.ofNat txBytes.toNat
      if 0 < rxBytes ∨ 0 < txBytes then
        some
          { device := interface
            shown := ofBuffer (interface.bytes.takeWhile fun byte ↦ byte != 32)
            counters := ![rxBytes, txBytes, .ofNat rxPackets.toNat, .ofNat txPackets.toNat]
            gauges :=
              { errorsPerSec := .ofNat rxErrs.toNat + .ofNat txErrs.toNat
                dropsPerSec :=
                  match rest with
                  | [.integer txDrop] => some (.ofNat rxDrop.toNat + .ofNat txDrop.toNat)
                  | _ => none } }
      else none
  | _ => none

/-- `/proc/net/dev`; its first two lines are a header. -/
def netDev : Source NetworkGauges where
  entries := fun text ↦
    ((tokens text 10).drop 2).filterMap fun line ↦ networkEntry (sscanf networkFormat line.bytes)
  scale := ![1, 1, 1, 1]

def getNetworkPerformance (statics : Statics) (input : CallInput) :
    Statics × List (Output NetworkGauges) :=
  measure netDev statics input

/-! ## The law -/

/-- A line that has been listed, and the time at which it was. -/
structure Listed where
  device : CString
  counters : Counters
  time : ℚ
deriving DecidableEq

/-- The lines that a call lists, in their places. -/
def listing (source : Source Gauges) (input : CallInput) : List Listed :=
  match input.file with
  | none => []
  | some text => ((source.entries text).take 16).mapIdx fun place entry ↦
      ⟨entry.device, entry.counters, input.clock place⟩

/-- The static variables, and what the last call has listed. -/
structure Session where
  statics : Statics
  last : List Listed

def startSession : Session := ⟨initialStatics, []⟩

def sessionStep (source : Source Gauges) (session : Session) (input : CallInput) : Session where
  statics := (measure source session.statics input).1
  last := listing source input

/-- The clock is ahead of all readings of the last call. -/
def ClockAdvances (session : Session) (input : CallInput) : Prop :=
  ∀ before ∈ session.last, ∀ place, before.time < input.clock place

/-- The device is listed in the last call and in this one, with counters that have not gone back. -/
structure Consecutive (source : Source Gauges) (device : CString) (session : Session)
    (input : CallInput) (place oldPlace : ℕ) (before after : Listed) : Prop where
  before_listed : session.last[oldPlace]? = some before
  after_listed : (listing source input)[place]? = some after
  before_device : before.device = device
  after_device : after.device = device
  counters : ∀ counter, before.counters counter ≤ after.counters counter

/-- In the rows of a call, every rate of the device is the whole part of the difference of its own
counters, times the factor, by the time between its own lines. -/
def RatesExact (source : Source Gauges) (device : CString) (session : Session)
    (input : CallInput) (rows : List (Output Gauges)) : Prop :=
  ∀ place oldPlace before after,
    Consecutive source device session input place oldPlace before after →
      ∃ output, rows[place]? = some output ∧
        output.rates = some fun counter ↦
          some ⌊((((after.counters counter).toNat - (before.counters counter).toNat) *
            (source.scale counter).toNat : ℕ) : ℚ) / (after.time - before.time)⌋₊

/-- The device is the first one in both calls, the clock was positive in the last one and read the
same for its first and its last line, and no difference overflows when it is multiplied by its
factor. -/
def FirstInBoth (source : Source Gauges) (device : CString) (session : Session)
    (input : CallInput) : Prop :=
  ∀ place oldPlace before after,
    Consecutive source device session input place oldPlace before after →
      place = 0 ∧ oldPlace = 0 ∧ 0 < before.time ∧
        (∀ other ∈ session.last.getLast?, other.time = before.time) ∧
        ∀ counter, ((after.counters counter).toNat - (before.counters counter).toNat) *
          (source.scale counter).toNat < 2 ^ 64

/-! ## The loop -/

section Loop

variable (scale : Counters) (clock : ℕ → ℚ)

theorem account_cons {count : ℕ} (hroom : count < 16) (statics : Statics) (entry : Entry Gauges)
    (rest : List (Entry Gauges)) :
    account scale clock count statics (entry :: rest) =
      ((account scale clock (count + 1) (saveLine clock count statics entry) rest).1,
        outputRow scale clock count statics entry ::
          (account scale clock (count + 1) (saveLine clock count statics entry) rest).2) := by
  rw [account, if_pos hroom]

theorem account_full {count : ℕ} (hfull : ¬count < 16) (statics : Statics)
    (entries : List (Entry Gauges)) :
    account scale clock count statics entries = (statics, []) := by
  cases entries with
  | nil => rfl
  | cons entry rest => rw [account, if_neg hfull]

/-- The loop leaves the slots before its place as they are. -/
theorem account_prev {count place : ℕ} (h : place < count) (statics : Statics)
    (entries : List (Entry Gauges)) :
    (account scale clock count statics entries).1.prev place = statics.prev place := by
  induction entries generalizing count statics with
  | nil => rfl
  | cons entry rest ih =>
    by_cases hroom : count < 16
    · rw [account_cons scale clock hroom, ih (Nat.lt_succ_of_lt h)]
      exact Function.update_of_ne h.ne _ _
    · rw [account_full scale clock hroom]

/-- The loop sets the time to that of the last line it lists. -/
theorem account_prevTime {count : ℕ} (hroom : count < 16) (statics : Statics)
    (entry : Entry Gauges) (rest : List (Entry Gauges)) :
    (account scale clock count statics (entry :: rest)).1.prevTime =
      clock (count + min rest.length (15 - count)) := by
  induction rest generalizing count statics entry with
  | nil =>
    rw [account_cons scale clock hroom]
    simp [account, saveLine]
  | cons next rest ih =>
    rw [account_cons scale clock hroom]
    by_cases hmore : count + 1 < 16
    · rw [ih hmore, List.length_cons]
      congr 1
      omega
    · rw [account_full scale clock hmore]
      have hlast : count = 15 := by omega
      rw [hlast, Nat.sub_self, Nat.min_zero]
      rfl

end Loop

/-! ## The invariant -/

/-- After a call that lists something, slot 0 has the counters of its first line, and the time is
that of its last line. -/
structure Invariant (session : Session) : Prop where
  first : ∀ before ∈ session.last[0]?, session.statics.prev 0 = before.counters
  time : ∀ before ∈ session.last.getLast?, session.statics.prevTime = before.time

theorem listing_getElem? (source : Source Gauges) (text : CString) (clock : ℕ → ℚ) (place : ℕ) :
    (listing source ⟨some text, clock⟩)[place]? =
      if place < 16 then
        (source.entries text)[place]?.map fun entry ↦ ⟨entry.device, entry.counters, clock place⟩
      else none := by
  unfold listing
  dsimp only
  rw [List.getElem?_mapIdx, List.getElem?_take]
  split_ifs <;> rfl

theorem listing_getLast? {source : Source Gauges} {text : CString} {entry : Entry Gauges}
    {rest : List (Entry Gauges)} (hentries : source.entries text = entry :: rest) (clock : ℕ → ℚ) :
    ∀ before ∈ (listing source ⟨some text, clock⟩).getLast?,
      before.time = clock (min rest.length 15) := by
  intro before hbefore
  have hlast := hbefore
  rw [List.getLast?_eq_getElem?, listing_getElem?] at hlast
  have hlength : (listing source ⟨some text, clock⟩).length - 1 = min rest.length 15 := by
    simp only [listing, hentries, List.length_mapIdx, List.length_take, List.length_cons]
    omega
  rw [hlength, if_pos (by omega)] at hlast
  obtain ⟨last, -, rfl⟩ := Option.map_eq_some_iff.1 hlast
  rfl

theorem invariant_sessionStep (source : Source Gauges) (session : Session) (input : CallInput) :
    Invariant (sessionStep source session input) := by
  obtain ⟨file, clock⟩ := input
  cases file with
  | none => exact ⟨fun _ h ↦ (nomatch h), fun _ h ↦ (nomatch h)⟩
  | some text =>
    cases hentries : source.entries text with
    | nil =>
      have hnone : (sessionStep source session ⟨some text, clock⟩).last = [] := by
        simp [sessionStep, listing, hentries]
      constructor <;> intro before hbefore <;> rw [hnone] at hbefore <;> cases hbefore
    | cons entry rest =>
      have hstatics : (sessionStep source session ⟨some text, clock⟩).statics =
          (account source.scale clock 0 session.statics (entry :: rest)).1 := by
        rw [← hentries]
        rfl
      constructor
      · intro before hbefore
        have hfirst := (listing_getElem? source text clock 0).symm.trans hbefore
        rw [hentries] at hfirst
        cases hfirst
        rw [hstatics, account_cons source.scale clock (Nat.zero_lt_succ 15),
          account_prev source.scale clock (Nat.lt_succ_self 0)]
        exact Function.update_self 0 entry.counters session.statics.prev
      · intro before hbefore
        rw [listing_getLast? hentries clock before hbefore, hstatics,
          account_prevTime source.scale clock (Nat.zero_lt_succ 15), Nat.zero_add]

/-! ## The first place -/

theorem rate_eq {scale before after : UInt64} {timeDiff : ℚ} (htime : 0 < timeDiff)
    (hle : before ≤ after) (hfits : (after.toNat - before.toNat) * scale.toNat < 2 ^ 64) :
    rate scale before after timeDiff =
      some ⌊(((after.toNat - before.toNat) * scale.toNat : ℕ) : ℚ) / timeDiff⌋₊ := by
  unfold rate
  rw [if_pos htime, UInt64.toNat_mul, UInt64.toNat_sub_of_le _ _ hle, Nat.mod_eq_of_lt hfits]

theorem ratesExact_of_firstInBoth {source : Source Gauges} {device : CString} {session : Session}
    {input : CallInput} (h : Invariant session) (hclock : ClockAdvances session input)
    (hfirst : FirstInBoth source device session input) :
    RatesExact source device session input (measure source session.statics input).2 := by
  intro place oldPlace before after hconsecutive
  obtain ⟨rfl, rfl, hpos, hstill, hfits⟩ := hfirst place oldPlace before after hconsecutive
  obtain ⟨hbefore, hafter, -, -, hcounters⟩ := hconsecutive
  obtain ⟨file, clock⟩ := input
  cases file with
  | none => cases hafter
  | some text =>
    rw [listing_getElem?, if_pos (by decide)] at hafter
    cases hentries : source.entries text with
    | nil =>
      rw [hentries] at hafter
      cases hafter
    | cons entry rest =>
      rw [hentries] at hafter
      cases hafter
      have hmem : before ∈ session.last := List.mem_of_getElem? hbefore
      have hlast := List.getLast?_eq_some_getLast (List.ne_nil_of_mem hmem)
      have htime := (h.time _ hlast).trans (hstill _ hlast)
      have hless : before.time < clock 0 := hclock before hmem 0
      refine ⟨outputRow source.scale clock 0 session.statics entry, ?_, ?_⟩
      · show (account source.scale clock 0 session.statics (source.entries text)).2[0]? = _
        rw [hentries, account_cons source.scale clock (Nat.zero_lt_succ 15)]
        rfl
      · unfold outputRow
        rw [htime, if_pos hpos, h.first before hbefore]
        refine congrArg some (funext fun counter ↦ ?_)
        exact rate_eq (sub_pos.2 hless) (hcounters counter) (hfits counter)

/-- The law for one of the two functions. -/
theorem along_ratesExact {source : Source Gauges} {device : CString} {calls : List CallInput}
    (hclock : Along (sessionStep source) ClockAdvances startSession calls)
    (hfirst : Along (sessionStep source) (FirstInBoth source device) startSession calls) :
    Along (sessionStep source) (fun session input ↦
      RatesExact source device session input (measure source session.statics input).2)
      startSession calls := by
  have hstep : ∀ session input, Invariant session →
      (ClockAdvances session input ∧ FirstInBoth source device session input) →
        Invariant (sessionStep source session input) ∧
          RatesExact source device session input (measure source session.statics input).2 := by
    intro session input h hallowed
    exact ⟨invariant_sessionStep source session input,
      ratesExact_of_firstInBoth h hallowed.1 hallowed.2⟩
  have hstart : Invariant startSession := ⟨fun _ h ↦ (nomatch h), fun _ h ↦ (nomatch h)⟩
  exact along_of_invariant hstep hstart (hclock.and hfirst)

/-- The rates of a device are right where it is the first one in both calls.  Whatever devices come,
go or change places behind it, its rates are those of its own counters over its own interval. -/
theorem along_ratesExact_io_net (disk interface : CString) (ioCalls netCalls : List CallInput)
    (hioClock : Along (sessionStep diskstats) ClockAdvances startSession ioCalls)
    (hioFirst : Along (sessionStep diskstats) (FirstInBoth diskstats disk) startSession ioCalls)
    (hnetClock : Along (sessionStep netDev) ClockAdvances startSession netCalls)
    (hnetFirst : Along (sessionStep netDev) (FirstInBoth netDev interface) startSession netCalls) :
    Along (sessionStep diskstats) (fun session input ↦
        RatesExact diskstats disk session input (getIoPerformance session.statics input).2)
        startSession ioCalls ∧
      Along (sessionStep netDev) (fun session input ↦
        RatesExact netDev interface session input (getNetworkPerformance session.statics input).2)
        startSession netCalls :=
  ⟨along_ratesExact hioClock hioFirst, along_ratesExact hnetClock hnetFirst⟩

/-! ## Runs of two calls -/

theorem along_clockAdvances_two {source : Source Gauges} {first second : CallInput}
    (h : ∀ before ∈ listing source first, ∀ place, before.time < second.clock place) :
    Along (sessionStep source) ClockAdvances startSession [first, second] :=
  ⟨fun _ hmem ↦ (nomatch hmem), h, trivial⟩

/-- Nothing is asked of a first call. -/
theorem firstInBoth_startSession (source : Source Gauges) (device : CString) (input : CallInput) :
    FirstInBoth source device startSession input := by
  intro place oldPlace before after h
  cases h.before_listed

/-- A device that is listed in front of others in both calls. -/
theorem firstInBoth_of_cons {source : Source Gauges} {session : Session} {input : CallInput}
    {before after : Listed} {oldOthers others : List Listed} {device : CString}
    (hlast : session.last = before :: oldOthers) (hlisting : listing source input = after :: others)
    (hold : ∀ other ∈ oldOthers, other.device ≠ device ∧ other.time = before.time)
    (hothers : ∀ other ∈ others, other.device ≠ device) (htime : 0 < before.time)
    (hfits : ∀ counter, ((after.counters counter).toNat - (before.counters counter).toNat) *
      (source.scale counter).toNat < 2 ^ 64) : FirstInBoth source device session input := by
  rintro place oldPlace listedBefore listedAfter ⟨hbefore, hafter, hbeforeDevice, hafterDevice, -⟩
  rw [hlast] at hbefore ⊢
  rw [hlisting] at hafter
  cases oldPlace with
  | succ oldPlace => exact absurd hbeforeDevice (hold _ (List.mem_of_getElem? hbefore)).1
  | zero =>
    cases place with
    | succ place => exact absurd hafterDevice (hothers _ (List.mem_of_getElem? hafter))
    | zero =>
      cases hbefore
      cases hafter
      refine ⟨rfl, rfl, htime, fun other hother ↦ ?_, hfits⟩
      rcases List.mem_cons.1 (List.mem_of_getLast? hother) with rfl | hmem
      · rfl
      · exact (hold other hmem).2

/-- The device `sd` with a letter. -/
def diskName (letter : UInt8) : CString := ofBuffer [115, 100, letter]

/-- Its line, with a digit for the reads: `8 0 sda 5 0 2 0 1 0 4 0 0 0 0`. -/
def diskLine (letter reads : UInt8) : List UInt8 :=
  [56, 32, 48, 32, 115, 100, letter, 32, reads, 32, 48, 32, 50, 32, 48, 32, 49, 32, 48, 32, 52, 32,
    48, 32, 48, 32, 48, 32, 48, 10]

/-- The line of an interface with a name of two letters, and a digit for the received bytes:
`lo: 5 1 0 0 0 0 0 0 1 1 0 0`. -/
def interfaceLine (first second bytes : UInt8) : List UInt8 :=
  [first, second, 58, 32, bytes, 32, 49, 32, 48, 32, 48, 32, 48, 32, 48, 32, 48, 32, 48, 32, 49, 32,
    49, 32, 48, 32, 48, 10]

/-- Two lines for the header, and the interfaces `lo` and `wl`. -/
def interfaceLines (bytes : UInt8) : List UInt8 :=
  [124, 10, 124, 10] ++ interfaceLine 108 111 bytes ++ interfaceLine 119 108 bytes

def callAt (time : ℚ) (text : List UInt8) : CallInput := ⟨some (ofBuffer text), fun _ ↦ time⟩

/-- Two devices in two calls, at 1 s and at 3 s. -/
def twoDisks : List CallInput :=
  [callAt 1 (diskLine 97 53 ++ diskLine 98 53), callAt 3 (diskLine 97 55 ++ diskLine 98 55)]

theorem listing_twoDisks_first :
    listing diskstats (callAt 1 (diskLine 97 53 ++ diskLine 98 53)) =
      [⟨diskName 97, ![5, 1, 2, 4], 1⟩, ⟨diskName 98, ![5, 1, 2, 4], 1⟩] := by
  decide +kernel

theorem listing_twoDisks_second :
    listing diskstats (callAt 3 (diskLine 97 55 ++ diskLine 98 55)) =
      [⟨diskName 97, ![7, 1, 2, 4], 3⟩, ⟨diskName 98, ![7, 1, 2, 4], 3⟩] := by
  decide +kernel

/-- The first of two devices and the first of two interfaces. -/
theorem along_ratesExact_io_net_two :
    Along (sessionStep diskstats) (fun session input ↦
        RatesExact diskstats (diskName 97) session input
          (getIoPerformance session.statics input).2) startSession twoDisks ∧
      Along (sessionStep netDev) (fun session input ↦
        RatesExact netDev (ofBuffer [108, 111]) session input
          (getNetworkPerformance session.statics input).2)
        startSession [callAt 1 (interfaceLines 53), callAt 3 (interfaceLines 55)] := by
  have hnetBefore : listing netDev (callAt 1 (interfaceLines 53)) =
      [⟨ofBuffer [108, 111], ![5, 1, 1, 1], 1⟩, ⟨ofBuffer [119, 108], ![5, 1, 1, 1], 1⟩] := by
    decide +kernel
  have hnetAfter : listing netDev (callAt 3 (interfaceLines 55)) =
      [⟨ofBuffer [108, 111], ![7, 1, 1, 1], 3⟩, ⟨ofBuffer [119, 108], ![7, 1, 1, 1], 3⟩] := by
    decide +kernel
  apply along_ratesExact_io_net
  · apply along_clockAdvances_two
    rw [listing_twoDisks_first]
    simp [callAt]
  · refine ⟨firstInBoth_startSession diskstats (diskName 97) _, ?_, trivial⟩
    exact firstInBoth_of_cons listing_twoDisks_first listing_twoDisks_second (by decide)
      (by decide) one_pos (by decide)
  · apply along_clockAdvances_two
    rw [hnetBefore]
    simp [callAt]
  · refine ⟨firstInBoth_startSession netDev (ofBuffer [108, 111]) _, ?_, trivial⟩
    exact firstInBoth_of_cons hnetBefore hnetAfter (by decide) (by decide) one_pos (by decide)

/-- The rates of the second device are divided by the time since the first line of the same call,
which is zero. -/
theorem not_along_ratesExact :
    Along (sessionStep diskstats) ClockAdvances startSession twoDisks ∧
      ¬Along (sessionStep diskstats) (fun session input ↦
        RatesExact diskstats (diskName 98) session input
          (getIoPerformance session.statics input).2) startSession twoDisks := by
  constructor
  · apply along_clockAdvances_two
    rw [listing_twoDisks_first]
    simp [callAt]
  · rintro ⟨-, hexact, -⟩
    have hconsecutive : Consecutive diskstats (diskName 98)
        (sessionStep diskstats startSession (callAt 1 (diskLine 97 53 ++ diskLine 98 53)))
        (callAt 3 (diskLine 97 55 ++ diskLine 98 55)) 1 1
        ⟨diskName 98, ![5, 1, 2, 4], 1⟩ ⟨diskName 98, ![7, 1, 2, 4], 3⟩ :=
      ⟨by rw [sessionStep, listing_twoDisks_first]; rfl, by rw [listing_twoDisks_second]; rfl, rfl,
        rfl, by decide⟩
    obtain ⟨output, houtput, hrates⟩ := hexact 1 1 _ _ hconsecutive
    have hnone : ((getIoPerformance
        (sessionStep diskstats startSession (callAt 1 (diskLine 97 53 ++ diskLine 98 53))).statics
        (callAt 3 (diskLine 97 55 ++ diskLine 98 55))).2[1]?.map fun output ↦
          output.rates.map fun rates ↦ rates 0) = some (some none) := by decide +kernel
    rw [houtput, Option.map_some, hrates] at hnone
    cases hnone

end HiFetch.Performance
