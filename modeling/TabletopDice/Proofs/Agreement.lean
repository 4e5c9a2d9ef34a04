import TabletopDice.Proofs.Arguments
import TabletopDice.Proofs.Calls
import TabletopDice.Proofs.Fulfilment

/-!
# The command and the order

Quiet rolls that are asked for on the command line and an order for the same
rolls come to the same.  Both make the same requests of their source, and one
gives a report as the other gives a record: the totals and the summary of the
record are what the command prints, a rejection is what the command reports as
an error, and the digit limit is where the command breaks off.
-/

namespace TabletopDice

open Text Rolling

variable {σ : Type}

/-- The failures of which the message is about the digit limit. -/
def Failure.IsDigitLimit : Failure → Prop
  | .tooManyDigits _ => True
  | .unwritable => True
  | _ => False

theorem outcome_serve (source : Source σ) (stamp : Stamp) (order : Order)
    (feed : Feed σ) :
    outcome (order.serve source stamp) feed =
      ((outcome (order.fulfil source stamp) feed).1.mapError
          ToolFailure.ofFailure,
        (outcome (order.fulfil source stamp) feed).2) := by
  unfold outcome Order.serve EStateM.adaptExcept
  cases order.fulfil source stamp feed with
  | ok record after => rfl
  | error failure after => rfl

namespace CommandLine

/-! ## Reports of quiet rolls -/

def totalLine (total : ℤ) : String :=
  "total: " ++ decimal total

section Quiet

variable (text : String) (mode : Mode) (times : ℤ)

/-- The number of a roll is not shown. -/
theorem groups_quiet (rolls : List Roll) :
    (quietSettings text mode times).groups rolls =
      rolls.map fun roll => [totalLine roll.total] := by
  calc
    (quietSettings text mode times).groups rolls =
        ((rolls.zipIdx 1).map Prod.fst).map
          fun roll => [totalLine roll.total] := by
      rw [List.map_map]
      rfl
    _ = rolls.map fun roll => [totalLine roll.total] := by
      rw [List.zipIdx_map_fst]

theorem intercalate_nil_map_singleton (lines : List String) :
    [].intercalate (lines.map fun line => [line]) = lines := by
  induction lines with
  | nil => rfl
  | cons first rest ih =>
      cases rest with
      | nil => simp
      | cons second rest =>
          simp only [List.map_cons] at ih ⊢
          rw [List.intercalate_cons_cons, ih]
          rfl

theorem rollLines_quiet (rolls : List Roll) :
    (quietSettings text mode times).rollLines rolls =
      (rolls.map Roll.total).map totalLine := by
  have hlines : (rolls.map fun roll => [totalLine roll.total]) =
      ((rolls.map Roll.total).map totalLine).map fun line => [line] := by
    rw [List.map_map, List.map_map]
    rfl
  unfold Settings.rollLines
  rw [groups_quiet, hlines]
  exact intercalate_nil_map_singleton _

theorem report_quiet_of_ok {rolls : List Roll} {summary : Summary}
    (resolutions : List Resolution)
    (hwritable : ∀ roll ∈ rolls, roll.isWritable true = true)
    (hsummary : Summary.ofTotals (rolls.map Roll.total) = .ok (some summary)) :
    (quietSettings text mode times).report resolutions (.ok rolls) =
      ⟨(rolls.map Roll.total).map totalLine ++
          (if 1 < rolls.length then "" :: summary.lines else []),
        [], .exit 0⟩ := by
  have hall : rolls.all (quietSettings text mode times).isWritable = true :=
    List.all_eq_true.mpr hwritable
  have hlines : Settings.summaryLines rolls =
      .ok (if 1 < rolls.length then "" :: summary.lines else []) := by
    unfold Settings.summaryLines
    by_cases hlength : rolls.length ≤ 1
    · rw [if_pos hlength, if_neg (by omega)]
    · rw [if_neg hlength, if_pos (by omega), hsummary]
      rfl
  unfold Settings.report
  dsimp only
  rw [if_pos hall, hlines, rollLines_quiet]
  rfl

end Quiet

/-! ## Reports and records -/

/-- A report says the same as what came of an order for so many rolls. -/
structure Report.Agrees (report : Report) (times : ℤ)
    (fulfilled : Except Failure Record)
    (served : Except ToolFailure Record) : Prop where
  record_iff : (∃ record, fulfilled = .ok record) ↔ report.ending = .exit 0
  out : ∀ record, fulfilled = .ok record →
    ∃ summary, record.summary = some summary ∧
      report.out =
        (record.totals.map fun total => "total: " ++ decimal total) ++
          (if 1 < times then "" :: summary.lines else [])
  rejected_iff : (∃ rejection, fulfilled = .error (.rejected rejection)) ↔
    report.ending = .exit 1
  rejected : ∀ rejection, fulfilled = .error (.rejected rejection) →
    report.out = [] ∧
      printed report.err = "error: " ++ rejection.message ++ "\n" ∧
      served = .error (.refused rejection.message)
  broken_iff : ∀ failure,
    (fulfilled = .error failure ∧ failure.IsDigitLimit) ↔
      report.ending = .broken failure

theorem agrees_of_rejected (times : ℤ) (rejection : Rejection) :
    Report.Agrees ⟨[], ["error: " ++ rejection.message], .exit 1⟩ times
      (.error (.rejected rejection)) (.error (.refused rejection.message)) where
  record_iff := by simp
  out := by simp
  rejected_iff := by simp
  rejected := by
    intro other hother
    cases hother
    refine ⟨rfl, ?_, rfl⟩
    simp [printed, String.join]
  broken_iff := by
    intro failure
    constructor
    · intro hfailure
      cases hfailure.1
      exact hfailure.2.elim
    · intro hending
      cases hending

theorem agrees_of_tooManyDigits (times : ℤ) (digits : ℕ)
    (served : Except ToolFailure Record) :
    Report.Agrees ⟨[], [], .broken (.tooManyDigits digits)⟩ times
      (.error (.tooManyDigits digits)) served where
  record_iff := by simp
  out := by simp
  rejected_iff := by simp
  rejected := by simp
  broken_iff := by
    intro failure
    constructor
    · intro hfailure
      cases hfailure.1
      rfl
    · intro hending
      cases hending
      exact ⟨rfl, trivial⟩

theorem agrees_of_record {times : ℤ} {record : Record} {summary : Summary}
    (hsummary : record.summary = some summary)
    (served : Except ToolFailure Record) :
    Report.Agrees
      ⟨record.totals.map totalLine ++
          (if 1 < times then "" :: summary.lines else []), [], .exit 0⟩
      times (.ok record) served where
  record_iff := by simp
  out := by
    intro other hother
    cases hother
    exact ⟨summary, hsummary, rfl⟩
  rejected_iff := by simp
  rejected := by simp
  broken_iff := by simp

/-! ## Runs and orders -/

variable {source : Source σ} {feed after : Feed σ}

theorem play_of_roll_ok {settings : Settings} {times : ℤ} {rolls : List Roll}
    (htimes : settings.times = .value times)
    (hrolls : settings.roll source times feed = .ok rolls after) :
    settings.play source feed =
      (settings.report after.resolutions.toList (.ok rolls), after) := by
  unfold Settings.play
  rw [htimes]
  dsimp only
  rw [hrolls]

theorem play_of_roll_error {settings : Settings} {times : ℤ}
    {failure : Failure} (htimes : settings.times = .value times)
    (hrolls : settings.roll source times feed = .error failure after) :
    settings.play source feed =
      (settings.report after.resolutions.toList (.error failure), after) := by
  unfold Settings.play
  rw [htimes]
  dsimp only
  rw [hrolls]

theorem run_quietArguments (source : Source σ) (start : σ) (text : String)
    (mode : Mode) {times : ℤ} (htimes : Text.isWritable times = true) :
    run source start (quietArguments text mode times) =
      (quietSettings text mode times).play source (.initial start) := by
  unfold run
  rw [Settings.read_quietArguments text mode htimes]
  rfl

/-- Playing the settings of quiet rolls leaves the feed that the order leaves,
and the report agrees with what comes of the order. -/
def PlaysAsOrdered (source : Source σ) (stamp : Stamp) (text : String)
    (mode : Mode) (times : ℤ) (feed : Feed σ) : Prop :=
  ∃ report fulfilled after,
    (quietSettings text mode times).play source feed = (report, after) ∧
      outcome (Order.fulfil source stamp ⟨text, mode.name, times⟩) feed =
        (fulfilled, after) ∧
      report.Agrees times fulfilled
        (fulfilled.mapError ToolFailure.ofFailure)

section Cases

variable {stamp : Stamp} {text : String} {mode : Mode} {times : ℤ}

theorem playsAsOrdered_of_read_error {e : ReadError} (start : σ)
    (hread : Expression.read text = .error e) :
    PlaysAsOrdered source stamp text mode times (.initial start) := by
  have hquiet : Expression.read (quietSettings text mode times).expression =
      .error e := hread
  have hplay := Settings.play_of_read_error source start hquiet
  have hfulfil : Order.fulfil source stamp ⟨text, mode.name, times⟩
      (.initial start) = .error e.failure (.initial start) :=
    Order.fulfil_of_read_error hread
  refine ⟨_, _, _, hplay, outcome_of_error hfulfil, ?_⟩
  cases e with
  | fault fault => exact agrees_of_rejected times (.expression fault)
  | tooManyDigits digits => exact agrees_of_tooManyDigits times digits _

theorem playsAsOrdered_of_times_lt {expr : Expression}
    (hread : Expression.read text = .ok expr)
    (hwritable : Text.isWritable times = true) (htimes : times < 1) :
    PlaysAsOrdered source stamp text mode times feed := by
  have hquiet : Expression.read (quietSettings text mode times).expression =
      .ok expr := hread
  have hrejected :=
    Expression.rollMany_of_times_lt source expr htimes mode.name feed
  rw [Failure.ofTimes_of_isWritable hwritable] at hrejected
  have hroll : (quietSettings text mode times).roll source times feed =
      .error (.rejected (.times times)) feed := by
    rw [Settings.roll_of_read_ok source times hquiet]
    exact hrejected
  have hfulfil : Order.fulfil source stamp ⟨text, mode.name, times⟩ feed =
      .error (.rejected (.times times)) feed :=
    Order.fulfil_of_rollMany_error hread hrejected
  exact ⟨_, _, _, play_of_roll_error rfl hroll, outcome_of_error hfulfil,
    agrees_of_rejected times (.times times)⟩

theorem playsAsOrdered_of_rolls (hsource : source.KeepsBounds)
    {expr : Expression} {rolls : List Roll}
    (hread : Expression.read text = .ok expr)
    (hrolls : expr.rollMany source times mode.name feed = .ok rolls after)
    (hrange : Order.StaysInRange source ⟨text, mode.name, times⟩ feed) :
    PlaysAsOrdered source stamp text mode times feed := by
  have hquiet : Expression.read (quietSettings text mode times).expression =
      .ok expr := hread
  have hexpr : expr.WellFormed :=
    Expression.wellFormed_of_readChars_eq_ok hread
  obtain ⟨record, hrecord, hrecorded, htotals⟩ :=
    Order.exists_fulfil_eq_ok stamp ⟨text, mode.name, times⟩ hsource hread
      hrolls hrange
  obtain ⟨summary, hsummary, -⟩ :=
    Expression.exists_covers_of_rollMany_eq_ok hrolls htotals
  rw [hsummary] at htotals
  have hwritable : ∀ roll ∈ rolls, roll.isWritable true = true := by
    intro roll hroll
    exact hexpr.isWritable_of_mem_rolls hsource hrolls hroll
      (hrange expr rolls after hread hrolls roll hroll) true
  have hroll : (quietSettings text mode times).roll source times feed =
      .ok rolls after := by
    rw [Settings.roll_of_read_ok source times hquiet]
    exact hrolls
  have hplay : (quietSettings text mode times).play source feed = _ :=
    play_of_roll_ok rfl hroll
  have hcount : 1 < rolls.length ↔ 1 < times := by
    have hlength := Expression.length_of_rollMany_eq_ok hrolls
    omega
  rw [report_quiet_of_ok text mode times _ hwritable htotals,
    if_congr hcount rfl rfl, ← hrecorded] at hplay
  exact ⟨_, _, _, hplay, outcome_of_ok hrecord, agrees_of_record hsummary _⟩

end Cases

/-- Quiet rolls on the command line and an order for them make the same
requests, and the report agrees with what comes of the order. -/
theorem command_agrees_with_order (hsource : source.AnswersWithinBounds)
    (stamp : Stamp) (start : σ) (text : String) (mode : Mode) {times : ℤ}
    (htimes : Text.isWritable times = true) :
    let order : Order := ⟨text, mode.name, times⟩
    let fulfilled := outcome (order.fulfil source stamp) (.initial start)
    let served := outcome (order.serve source stamp) (.initial start)
    let ran := run source start (quietArguments text mode times)
    (text.length < 2 ^ 900 → order.StaysInRange source (.initial start)) ∧
      (order.StaysInRange source (.initial start) →
        ran.2 = fulfilled.2 ∧
          ran.1.Agrees times fulfilled.1 served.1) := by
  intro order fulfilled served ran
  constructor
  · intro hlength
    exact Order.staysInRange_of_length_lt hsource.keepsBounds hlength _
  intro hrange
  -- An order ends at its text, at its number of rolls, or with a record.
  have hagree :
      PlaysAsOrdered source stamp text mode times (.initial start) := by
    cases hread : Expression.read text with
    | error e => exact playsAsOrdered_of_read_error start hread
    | ok expr =>
        by_cases hnone : times < 1
        · exact playsAsOrdered_of_times_lt hread htimes hnone
        · have hexpr : expr.WellFormed :=
            Expression.wellFormed_of_readChars_eq_ok hread
          have hpos : 1 ≤ times := by omega
          obtain ⟨rolls, after, hrolls⟩ := hexpr.exists_ok_rollMany
            hsource.answers mode hpos (.initial start)
          exact playsAsOrdered_of_rolls hsource.keepsBounds hread hrolls
            hrange
  obtain ⟨report, result, after, hplay, hresult, hagrees⟩ := hagree
  have hran : ran = (report, after) := by
    rw [← hplay]
    exact run_quietArguments source start text mode htimes
  have hfulfilled : fulfilled = (result, after) := hresult
  have hserved : served =
      (result.mapError ToolFailure.ofFailure, after) := by
    have houtcome := outcome_serve source stamp order (.initial start)
    rw [hresult] at houtcome
    exact houtcome
  rw [hran, hfulfilled, hserved]
  exact ⟨rfl, hagrees⟩

theorem command_agrees_with_order_three_rolls :
    let source := Source.linear 3 5
    let stamp : Stamp := ⟨0, ⟨2024, 2, 29, 12, 0, 0⟩, 1⟩
    let order : Order := ⟨"-2 + d20", Mode.advantage.name, 3⟩
    let fulfilled := outcome (order.fulfil source stamp) (.initial 0)
    let served := outcome (order.serve source stamp) (.initial 0)
    let ran := run source 0 (quietArguments "-2 + d20" .advantage 3)
    quietArguments "-2 + d20" .advantage 3 =
        ["-q", "--adv", "-t", "3", "--", "-2 + d20"] ∧
      source.AnswersWithinBounds ∧ Text.isWritable 3 = true ∧
      order.StaysInRange source (.initial 0) ∧
      ran.2 = fulfilled.2 ∧ ran.1.Agrees 3 fulfilled.1 served.1 := by
  intro source stamp order fulfilled served ran
  have hsource : source.AnswersWithinBounds :=
    Source.linear_answersWithinBounds 3 5
  have htimes : Text.isWritable 3 = true := by decide
  have hlength : "-2 + d20".length < 2 ^ 900 :=
    Order.length_lt_of_short (by decide)
  obtain ⟨hshort, hagree⟩ := command_agrees_with_order hsource stamp 0
    "-2 + d20" .advantage htimes
  have hrange : order.StaysInRange source (.initial 0) := hshort hlength
  exact ⟨rfl, hsource, htimes, hrange, hagree hrange⟩

end CommandLine

end TabletopDice
