import TabletopDice.Proofs.Agreement

/-!
# What an order comes to

The text of an order is read first, then its number of rolls is looked at, and
then its mode.  The first of the three that is at fault decides what comes of
the order, and nothing is drawn for it.  The fault is named, except that of a
number of rolls with too many digits to be written.  An order without a fault
comes to a record, and draws as often as one roll does, times the number of
rolls.  The tool gives the same record, or fails with the same message.
-/

namespace TabletopDice

open Text Rolling

variable {σ : Type} {source : Source σ}

/-! ## Numbers of rolls, modes and messages -/

theorem Failure.ofTimes_of_lt {times : ℤ} (hfew : times < 1)
    (hlow : -10 ^ digitLimit < times) :
    ofTimes times = .rejected (.times times) := by
  apply ofTimes_of_isWritable
  rw [isWritable_iff, abs_lt]
  exact ⟨hlow, hfew.trans_le (one_le_pow₀ (by decide))⟩

theorem lt_one_of_le_neg_pow {times : ℤ} (hlow : times ≤ -10 ^ digitLimit) :
    times < 1 := by
  have hpos : (0 : ℤ) < 10 ^ digitLimit := by positivity
  linarith

theorem Failure.ofTimes_of_le {times : ℤ} (hlow : times ≤ -10 ^ digitLimit) :
    ofTimes times = .unwritable := by
  apply ofTimes_of_not_isWritable
  rw [isWritable_iff, abs_lt]
  exact fun hrange => absurd hrange.1 hlow.not_gt

theorem Mode.ofName?_eq_none_iff {name : String} :
    Mode.ofName? name = none ↔
      name ∉ ["none", "advantage", "disadvantage"] := by
  unfold Mode.ofName?
  rw [List.find?_eq_none]
  simp [Mode.all, Mode.name, eq_comm]

theorem Mode.exists_ofName?_eq_some {name : String}
    (hname : name ∈ ["none", "advantage", "disadvantage"]) :
    ∃ mode, Mode.ofName? name = some mode := by
  rw [← Option.ne_none_iff_exists']
  exact fun hnone => Mode.ofName?_eq_none_iff.mp hnone hname

/-- A failure keeps its message when the tool reports it. -/
theorem ToolFailure.message_ofFailure (failure : Failure) :
    (ToolFailure.ofFailure failure).message = failure.message := by
  cases failure <;> rfl

/-! ## The draws of one roll and of many -/

namespace Expression

/-- Whatever was rolled before, one roll in the mode succeeds and makes just
these requests. -/
def RollsBy (source : Source σ) (expr : Expression) (mode : String)
    (draws : List Request) : Prop :=
  ∀ before : Feed σ, ∃ roll after,
    expr.roll source mode before = .ok roll after ∧
      after.requests = before.requests ++ draws.toArray

theorem WellFormed.rollsBy_plan {expr : Expression}
    (hexpr : expr.WellFormed) (hsource : source.AnswersWithinBounds)
    {name : String} {mode : Mode} (hmode : Mode.ofName? name = some mode) :
    expr.RollsBy source name (expr.plan mode) := by
  intro before
  obtain ⟨roll, after, hroll⟩ :=
    (expr.follows_throw source mode).exists_ok_of_answers
      (fun request hrequest =>
        hsource.answers request (hexpr.satisfiable_of_mem_plan hrequest))
      before
  refine ⟨roll, after, ?_, ?_⟩
  · rw [expr.roll_of_ofName?_some source hmode]
    exact hroll
  · exact (expr.follows_throw source mode).requests_of_eq_ok hroll

theorem requests_of_rollMany_eq_ok {expr : Expression} {times : ℤ}
    {name : String} {mode : Mode} {feed after : Feed σ} {rolls : List Roll}
    (hmode : Mode.ofName? name = some mode)
    (hrolls : expr.rollMany source times name feed = .ok rolls after) :
    after.requests = feed.requests ++
      (List.replicate times.toNat (expr.plan mode)).flatten.toArray := by
  obtain ⟨-, known, hknown, hthrows⟩ := rollMany_eq_ok_iff.mp hrolls
  obtain rfl : mode = known := Option.some.inj (hmode.symm.trans hknown)
  have hfollows := (expr.follows_throw source mode).repeated times.toNat
  exact hfollows.requests_of_eq_ok hthrows

end Expression

namespace Order

/-! ## Orders without a fault -/

/-- The order comes to a record with a last roll and a summary, and draws for
each of its rolls what one roll draws. -/
def IsRecorded (source : Source σ) (stamp : Stamp) (order : Order)
    (expr : Expression) (feed : Feed σ) : Prop :=
  ∃ record after last summary draws,
    outcome (order.fulfil source stamp) feed = (.ok record, after) ∧
    record.rolls.getLast? = some last ∧ record.summary = some summary ∧
    expr.RollsBy source order.mode draws ∧
    after.requests = feed.requests ++
      (List.replicate order.times.toNat draws).flatten.toArray ∧
    (after.requests.size : ℤ) =
      feed.requests.size + order.times * draws.length

variable {order : Order} {feed : Feed σ} {expr : Expression}

theorem isRecorded_of_mode_mem (hsource : source.AnswersWithinBounds)
    (stamp : Stamp) (hlength : order.expression.length < 2 ^ 900)
    (feed : Feed σ) (hread : Expression.read order.expression = .ok expr)
    (htimes : 1 ≤ order.times)
    (hname : order.mode ∈ ["none", "advantage", "disadvantage"]) :
    order.IsRecorded source stamp expr feed := by
  obtain ⟨mode, hmode⟩ := Mode.exists_ofName?_eq_some hname
  have hexpr : expr.WellFormed :=
    Expression.wellFormed_of_readChars_eq_ok hread
  -- The rolls are made, because all requests of a text can be satisfied.
  have hrolls : ∃ rolls after,
      expr.rollMany source order.times order.mode feed = .ok rolls after := by
    obtain ⟨rolls, after, hrolls⟩ :=
      hexpr.exists_ok_rollMany hsource.answers mode htimes feed
    refine ⟨rolls, after, ?_⟩
    rw [← hrolls, Expression.rollMany_of_ofName?_some source expr htimes hmode,
      Expression.rollMany_of_ofName?_some source expr htimes mode.ofName?_name]
  obtain ⟨rolls, after, hrolls⟩ := hrolls
  have hcount := Expression.length_of_rollMany_eq_ok hrolls
  -- They are put on record, because no text is long enough to lead them out of
  -- range.
  obtain ⟨record, hrecord, hrecorded, htotals⟩ :=
    exists_fulfil_eq_ok stamp order hsource.keepsBounds hread hrolls
      (staysInRange_of_length_lt hsource.keepsBounds hlength feed)
  obtain ⟨summary, hsummary, -⟩ :=
    Expression.exists_covers_of_rollMany_eq_ok hrolls htotals
  have hne : record.rolls ≠ [] := by
    rw [hrecorded, ← List.length_pos_iff]
    omega
  have hrequests := Expression.requests_of_rollMany_eq_ok hmode hrolls
  refine ⟨record, after, record.rolls.getLast hne, summary, expr.plan mode,
    outcome_of_ok hrecord, List.getLast?_eq_some_getLast hne, hsummary,
    hexpr.rollsBy_plan hsource hmode, hrequests, ?_⟩
  have hsize : after.requests.size =
      feed.requests.size + order.times.toNat * (expr.plan mode).length := by
    rw [hrequests]
    simp
  have htoNat : (order.times.toNat : ℤ) = order.times :=
    Int.toNat_of_nonneg (by omega)
  rw [hsize, Nat.cast_add, Nat.cast_mul, htoNat]

/-! ## Every order -/

theorem fulfil_of_times_lt
    (hread : Expression.read order.expression = .ok expr)
    (htimes : order.times < 1) (stamp : Stamp) :
    order.fulfil source stamp feed = .error (.ofTimes order.times) feed :=
  fulfil_of_rollMany_error hread
    (Expression.rollMany_of_times_lt source expr htimes order.mode feed)

/-- Of the text, the number of rolls and the mode, in this order, the first
that is at fault decides what an order comes to, and then nothing is drawn.  A
number of rolls below one is named by the failure, unless it has too many digits
to be written.  If nothing is at fault, the order comes to a record.  The tool
gives the same record, or fails with the same message. -/
theorem first_fault_or_record (hsource : source.AnswersWithinBounds)
    (stamp : Stamp) (hlength : order.expression.length < 2 ^ 900)
    (feed : Feed σ) :
    let fulfilled := outcome (order.fulfil source stamp) feed
    let served := outcome (order.serve source stamp) feed
    (∀ e, Expression.read order.expression = .error e →
      fulfilled = (.error e.failure, feed)) ∧
    (∀ expr, Expression.read order.expression = .ok expr →
      (order.times < 1 → -10 ^ digitLimit < order.times →
        fulfilled = (.error (.rejected (.times order.times)), feed)) ∧
      (order.times ≤ -10 ^ digitLimit →
        fulfilled = (.error .unwritable, feed)) ∧
      (1 ≤ order.times →
        order.mode ∉ ["none", "advantage", "disadvantage"] →
          fulfilled = (.error (.rejected (.mode order.mode)), feed)) ∧
      (1 ≤ order.times →
        order.mode ∈ ["none", "advantage", "disadvantage"] →
          order.IsRecorded source stamp expr feed)) ∧
    served.2 = fulfilled.2 ∧
    (∀ record, fulfilled.1 = .ok record → served.1 = .ok record) ∧
    ∀ failure, fulfilled.1 = .error failure →
      ∃ refusal, served.1 = .error refusal ∧
        refusal.message = failure.message := by
  intro fulfilled served
  have hserved : served =
      (fulfilled.1.mapError ToolFailure.ofFailure, fulfilled.2) :=
    outcome_serve source stamp order feed
  refine ⟨?_, ?_, ?_, ?_, ?_⟩
  · intro e hread
    exact outcome_of_error (fulfil_of_read_error hread)
  · intro expr hread
    refine ⟨?_, ?_, ?_, ?_⟩
    · intro htimes hlow
      rw [← Failure.ofTimes_of_lt htimes hlow]
      exact outcome_of_error (fulfil_of_times_lt hread htimes stamp)
    · intro hlow
      rw [← Failure.ofTimes_of_le hlow]
      exact outcome_of_error
        (fulfil_of_times_lt hread (lt_one_of_le_neg_pow hlow) stamp)
    · intro htimes hmode
      exact outcome_of_error (fulfil_of_rollMany_error hread
        (Expression.rollMany_of_ofName?_none source expr htimes
          (Mode.ofName?_eq_none_iff.mpr hmode) feed))
    · intro htimes hmode
      exact isRecorded_of_mode_mem hsource stamp hlength feed hread htimes
        hmode
  · rw [hserved]
  · intro record hrecord
    rw [hserved, hrecord]
    rfl
  · intro failure hfailure
    refine ⟨ToolFailure.ofFailure failure, ?_,
      ToolFailure.message_ofFailure failure⟩
    rw [hserved, hfailure]
    rfl

theorem first_fault_or_record_two_rolls :
    let source := Source.linear 3 5
    let stamp : Stamp := ⟨0, ⟨2024, 2, 29, 12, 0, 0⟩, 1⟩
    let order : Order := ⟨"2d6 - d20 + 1", "advantage", 2⟩
    let expr : Expression := ⟨[⟨2, 6, 1⟩, ⟨1, 20, -1⟩], [⟨1, 1⟩]⟩
    source.AnswersWithinBounds ∧ order.expression.length < 2 ^ 900 ∧
      Expression.read order.expression = .ok expr ∧ 1 ≤ order.times ∧
      order.mode ∈ ["none", "advantage", "disadvantage"] ∧
      order.IsRecorded source stamp expr (.initial 0) := by
  intro source stamp order expr
  have hsource : source.AnswersWithinBounds :=
    Source.linear_answersWithinBounds 3 5
  have hlength : order.expression.length < 2 ^ 900 :=
    length_lt_of_short (by decide)
  have hread : Expression.read "2d6 - d20 + 1" =
      .ok ⟨[⟨2, 6, 1⟩, ⟨1, 20, -1⟩], [⟨1, 1⟩]⟩ := by rfl
  have htimes : 1 ≤ order.times := by decide
  have hmode : order.mode ∈ ["none", "advantage", "disadvantage"] := by decide
  exact ⟨hsource, hlength, hread, htimes, hmode,
    ((first_fault_or_record hsource stamp hlength (.initial 0)).2.1
      expr hread).2.2.2 htimes hmode⟩

/-- A number of rolls with one digit more than can be written is refused, but
neither the order nor the tool names it. -/
theorem times_past_limit_are_not_named :
    let source := Source.linear 3 5
    let stamp : Stamp := ⟨0, ⟨2024, 2, 29, 12, 0, 0⟩, 1⟩
    let order : Order := ⟨"d6", "none", -10 ^ 4300⟩
    let fulfilled := outcome (order.fulfil source stamp) (.initial 0)
    let served := outcome (order.serve source stamp) (.initial 0)
    source.AnswersWithinBounds ∧ order.expression.length < 2 ^ 900 ∧
      Expression.read order.expression = .ok ⟨[⟨1, 6, 1⟩], []⟩ ∧
      order.times < 1 ∧ fulfilled.1 = .error .unwritable ∧
      fulfilled.1 ≠ .error (.rejected (.times order.times)) ∧
      served.1 = .error (.other .unwritable) ∧
      (ToolFailure.other .unwritable).message =
        "Exceeds the limit (4300 digits) for integer string conversion; " ++
          "use sys.set_int_max_str_digits() to increase the limit" := by
  intro source stamp order fulfilled served
  have hlength : order.expression.length < 2 ^ 900 :=
    length_lt_of_short (by decide)
  have hread : Expression.read "d6" = .ok ⟨[⟨1, 6, 1⟩], []⟩ := by rfl
  have hlow : order.times ≤ -10 ^ digitLimit := le_of_eq rfl
  have htimes : order.times < 1 := lt_one_of_le_neg_pow hlow
  have hfulfilled : fulfilled = (.error .unwritable, .initial 0) := by
    rw [← Failure.ofTimes_of_le hlow]
    exact outcome_of_error (fulfil_of_times_lt hread htimes stamp)
  have hserved : served =
      (fulfilled.1.mapError ToolFailure.ofFailure, fulfilled.2) :=
    outcome_serve source stamp order (.initial 0)
  rw [hserved, hfulfilled]
  exact ⟨Source.linear_answersWithinBounds 3 5, hlength, hread, htimes, rfl,
    by simp, rfl, by decide +kernel⟩

end Order

end TabletopDice
