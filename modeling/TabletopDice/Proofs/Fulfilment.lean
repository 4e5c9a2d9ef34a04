import TabletopDice.Record.Basic
import TabletopDice.Proofs.Magnitude
import TabletopDice.Proofs.Refusal
import TabletopDice.Proofs.Statistics

/-!
# Orders that are fulfilled

An order is refused because of its text, its number of rolls or its mode, and
then nothing is drawn.  Otherwise its rolls are made, and as long as their sums
stay in range they have a mean and can be explained, so that there is a record.
Every roll of a record accounts for the expression that the canonical text of
the record is read as.
-/

namespace TabletopDice

open Rolling

variable {σ : Type}

/-! ## Totals with a mean -/

theorem Summary.exists_ofTotals_eq_ok {totals : List ℤ}
    (hrange : ∀ total ∈ totals, |total| < 2 ^ 1024 - 2 ^ 970) :
    ∃ found, Summary.ofTotals totals = .ok found := by
  by_cases hne : totals = []
  · rw [hne]
    exact ⟨none, rfl⟩
  have hmean : |exactMean totals| < 2 ^ 1024 - 2 ^ 970 :=
    abs_exactMean_lt hne fun total htotal => by
      exact_mod_cast hrange total htotal
  obtain ⟨summary, hfound, -⟩ := exists_isExact hne hmean
  exact ⟨some summary, hfound⟩

/-! ## Many rolls -/

namespace Expression.WellFormed

variable {source : Source σ} {expr : Expression} {feed after : Feed σ}
  {rolls : List Roll}

theorem exists_ok_rollMany (hexpr : expr.WellFormed)
    (hsource : ∀ request, request.Satisfiable → source.Answers request)
    (mode : Mode) {times : ℤ} (htimes : 1 ≤ times) (feed : Feed σ) :
    ∃ rolls after,
      expr.rollMany source times mode.name feed = .ok rolls after := by
  rw [rollMany_of_ofName?_some source expr htimes mode.ofName?_name]
  apply ((expr.follows_throw source mode).repeated _).exists_ok_of_answers
  intro request hrequest
  obtain ⟨_, hplan, hmem⟩ := List.mem_flatten.mp hrequest
  rw [List.eq_of_mem_replicate hplan] at hmem
  exact hsource request (hexpr.satisfiable_of_mem_plan hmem)

theorem exists_outcome_of_mem_rolls (hexpr : expr.WellFormed)
    (hsource : source.KeepsBounds) {times : ℤ} {name : String}
    (hrolls : expr.rollMany source times name feed = .ok rolls after)
    {roll : Roll} (hroll : roll ∈ rolls) :
    ∃ mode answers, List.Forall₂ Request.Admits (expr.plan mode) answers ∧
      roll = expr.outcome mode answers := by
  obtain ⟨-, mode, -, hthrows⟩ := rollMany_eq_ok_iff.mp hrolls
  obtain ⟨before, next, hthrow⟩ := exists_ok_of_mem_repeated hthrows hroll
  exact ⟨mode, hexpr.admits_of_throw_eq_ok hsource hthrow⟩

theorem isWritable_of_mem_rolls (hexpr : expr.WellFormed)
    (hsource : source.KeepsBounds) {times : ℤ} {name : String}
    (hrolls : expr.rollMany source times name feed = .ok rolls after)
    {roll : Roll} (hroll : roll ∈ rolls) (hrange : roll.InRange)
    (quiet : Bool) : roll.isWritable quiet = true := by
  obtain ⟨mode, answers, hanswers, houtcome⟩ :=
    hexpr.exists_outcome_of_mem_rolls hsource hrolls hroll
  rw [houtcome] at hrange ⊢
  exact hexpr.isWritable_outcome hanswers hrange quiet

theorem exists_explanation (hexpr : expr.WellFormed)
    (hsource : source.KeepsBounds) {times : ℤ} {name : String}
    (hrolls : expr.rollMany source times name feed = .ok rolls after)
    (hrange : ∀ roll ∈ rolls, roll.InRange) :
    ∃ explanation,
      rolls.getLast?.elim (.ok "") Roll.explain = .ok explanation := by
  cases hlast : rolls.getLast? with
  | none => exact ⟨"", rfl⟩
  | some roll =>
      have hroll : roll ∈ rolls := List.mem_of_getLast? hlast
      have hwritable := hexpr.isWritable_of_mem_rolls hsource hrolls hroll
        (hrange roll hroll) false
      refine ⟨roll.phrase, ?_⟩
      change written (roll.isWritable false) roll.phrase = _
      rw [hwritable]
      rfl

theorem accounts_of_mem_rolls (hexpr : expr.WellFormed) {times : ℤ}
    {name : String}
    (hrolls : expr.rollMany source times name feed = .ok rolls after)
    {roll : Roll} (hroll : roll ∈ rolls) : roll.Accounts expr := by
  obtain ⟨-, mode, -, hthrows⟩ := rollMany_eq_ok_iff.mp hrolls
  obtain ⟨before, next, hthrow⟩ := exists_ok_of_mem_repeated hthrows hroll
  exact hexpr.accounts_of_throw_eq_ok hthrow

end Expression.WellFormed

/-- Rolls that were made are at least one, so that their summary is not
empty. -/
theorem Expression.exists_covers_of_rollMany_eq_ok {source : Source σ}
    {expr : Expression} {times : ℤ} {name : String} {feed after : Feed σ}
    {rolls : List Roll} {found : Option Summary}
    (hrolls : expr.rollMany source times name feed = .ok rolls after)
    (hfound : Summary.ofTotals (rolls.map Roll.total) = .ok found) :
    ∃ summary, found = some summary ∧
      summary.Covers (rolls.map Roll.total) := by
  have hlength := length_of_rollMany_eq_ok hrolls
  apply Summary.exists_covers_of_ofTotals_eq_ok _ hfound
  intro hnil
  rw [List.map_eq_nil_iff] at hnil
  rw [hnil, List.length_nil] at hlength
  omega

namespace Order

/-! ## What can come of an order -/

/-- An order is fulfilled if its text is read, its rolls are made and
summarized, and the last of them can be explained. -/
theorem fulfil_eq_ok_iff {source : Source σ} {stamp : Stamp}
    {order : Order} {feed after : Feed σ} {record : Record} :
    order.fulfil source stamp feed = .ok record after ↔
      ∃ expr rolls summary explanation,
        Expression.read order.expression = .ok expr ∧
        expr.rollMany source order.times order.mode feed = .ok rolls after ∧
        Summary.ofTotals (rolls.map Roll.total) = .ok summary ∧
        rolls.getLast?.elim (.ok "") Roll.explain = .ok explanation ∧
        record = { stamp, order, rolls, summary, explanation,
                   canonical := expr.canonical } := by
  unfold Order.fulfil
  constructor
  · intro hrecord
    obtain ⟨expr, _, hexpr, hrecord⟩ := bind_eq_ok_iff.mp hrecord
    obtain ⟨rolls, _, hrolls, hrecord⟩ := bind_eq_ok_iff.mp hrecord
    obtain ⟨summary, _, hsummary, hrecord⟩ := bind_eq_ok_iff.mp hrecord
    obtain ⟨explanation, _, hexplain, hpure⟩ := bind_eq_ok_iff.mp hrecord
    obtain ⟨hread, hfeed⟩ := require_eq_ok_iff.mp hexpr
    obtain ⟨hsummarized, hfeed'⟩ := require_eq_ok_iff.mp hsummary
    obtain ⟨hexplained, hfeed''⟩ := require_eq_ok_iff.mp hexplain
    subst hfeed hfeed' hfeed''
    cases hpure
    exact ⟨expr, rolls, summary, explanation,
      Traversal.mapError_eq_ok_iff.mp hread, hrolls, hsummarized,
      hexplained, rfl⟩
  · intro hrecord
    obtain ⟨expr, rolls, summary, explanation, hread, hrolls, hsummary,
      hexplain, hfields⟩ := hrecord
    subst record
    have hexpr :=
      (Traversal.mapError_eq_ok_iff (f := ReadError.failure)).mpr hread
    rw [bind_of_ok (require_eq_ok_iff.mpr ⟨hexpr, rfl⟩), bind_of_ok hrolls,
      bind_of_ok (require_eq_ok_iff.mpr ⟨hsummary, rfl⟩),
      bind_of_ok (require_eq_ok_iff.mpr ⟨hexplain, rfl⟩)]
    rfl

variable {source : Source σ} {stamp : Stamp} {order : Order}
  {feed after : Feed σ}

theorem fulfil_of_rollMany_error {expr : Expression} {failure : Failure}
    (hread : Expression.read order.expression = .ok expr)
    (hrolls : expr.rollMany source order.times order.mode feed =
      .error failure after) :
    order.fulfil source stamp feed = .error failure after := by
  have hexpr :=
    (Traversal.mapError_eq_ok_iff (f := ReadError.failure)).mpr hread
  unfold fulfil
  rw [bind_of_ok (require_eq_ok_iff.mpr ⟨hexpr, rfl⟩)]
  exact bind_of_error hrolls _

/-- All rolls that the order makes from a feed are in range. -/
def StaysInRange (source : Source σ) (order : Order) (feed : Feed σ) : Prop :=
  ∀ expr rolls after, Expression.read order.expression = .ok expr →
    expr.rollMany source order.times order.mode feed = .ok rolls after →
      ∀ roll ∈ rolls, roll.InRange

theorem length_lt_of_short {text : String} (hshort : text.length < 2 ^ 4) :
    text.length < 2 ^ 900 :=
  hshort.trans_le (pow_le_pow_right₀ one_le_two (by decide))

/-- No text of a length that occurs leads out of range. -/
theorem staysInRange_of_length_lt (hsource : source.KeepsBounds)
    (hlength : order.expression.length < 2 ^ 900) (feed : Feed σ) :
    order.StaysInRange source feed := by
  intro expr rolls after hread hrolls roll hroll
  have hexpr : expr.WellFormed :=
    Expression.wellFormed_of_readChars_eq_ok hread
  have hsize : expr.size < 2 ^ 900 :=
    (Expression.size_le_length_of_read_eq_ok hread).trans_lt hlength
  obtain ⟨mode, answers, hanswers, houtcome⟩ :=
    hexpr.exists_outcome_of_mem_rolls hsource hrolls hroll
  rw [houtcome]
  exact hexpr.inRange_outcome hsize hanswers

/-- Rolls that are made and stay in range are put on record. -/
theorem exists_fulfil_eq_ok (stamp : Stamp) (order : Order)
    (hsource : source.KeepsBounds) {expr : Expression} {rolls : List Roll}
    (hread : Expression.read order.expression = .ok expr)
    (hrolls : expr.rollMany source order.times order.mode feed =
      .ok rolls after)
    (hrange : order.StaysInRange source feed) :
    ∃ record, order.fulfil source stamp feed = .ok record after ∧
      record.rolls = rolls ∧
      Summary.ofTotals (rolls.map Roll.total) = .ok record.summary := by
  have hexpr : expr.WellFormed :=
    Expression.wellFormed_of_readChars_eq_ok hread
  have hinRange := hrange expr rolls after hread hrolls
  have htotals : ∀ total ∈ rolls.map Roll.total,
      |total| < 2 ^ 1024 - 2 ^ 970 := by
    rw [List.forall_mem_map]
    exact fun roll hroll => (hinRange roll hroll).total
  obtain ⟨summary, hsummary⟩ := Summary.exists_ofTotals_eq_ok htotals
  obtain ⟨explanation, hexplanation⟩ :=
    hexpr.exists_explanation hsource hrolls hinRange
  refine ⟨{ stamp, order, rolls, summary, explanation,
            canonical := expr.canonical }, ?_, rfl, hsummary⟩
  exact fulfil_eq_ok_iff.mpr ⟨expr, rolls, summary, explanation, hread,
    hrolls, hsummary, hexplanation, rfl⟩

/-! ## Records -/

/-- A record holds as many rolls as were ordered, with their totals, and a
summary that covers them.  Its canonical text is read as an expression that
every one of its rolls accounts for. -/
theorem record_accounts (source : Source σ) (stamp : Stamp)
    (order : Order) {feed after : Feed σ} {record : Record}
    (hrecord : order.fulfil source stamp feed = .ok record after) :
    (record.rolls.length : ℤ) = order.times ∧
      (record.totals.length : ℤ) = order.times ∧
      (∀ i : ℕ, record.totals[i]? = record.rolls[i]?.map Roll.total) ∧
      (∃ summary, record.summary = some summary ∧
        summary.count = order.times ∧ summary.Covers record.totals) ∧
      ∃ expr, Expression.read record.canonical = .ok expr ∧
        ∀ roll ∈ record.rolls, roll.Accounts expr := by
  obtain ⟨expr, rolls, summary, explanation, hread, hrolls, hsummary, -,
    hfields⟩ := fulfil_eq_ok_iff.mp hrecord
  have hexpr : expr.WellFormed :=
    Expression.wellFormed_of_readChars_eq_ok hread
  have htimes : (rolls.length : ℤ) = order.times :=
    (Expression.length_of_rollMany_eq_ok hrolls).2
  obtain ⟨found, hfound, hcovers⟩ :=
    Expression.exists_covers_of_rollMany_eq_ok hrolls hsummary
  have hcount : found.count = order.times := by
    rw [hcovers.count, List.length_map]
    exact htimes
  subst record
  refine ⟨htimes, ?_, ?_, ⟨found, hfound, hcount, hcovers⟩,
    expr, hexpr.read_canonical_eq, ?_⟩
  · unfold Record.totals
    rw [List.length_map]
    exact htimes
  · intro i
    exact List.getElem?_map
  · exact fun roll hroll => hexpr.accounts_of_mem_rolls hrolls hroll

theorem record_accounts_two_rolls :
    let order : Order := ⟨"2d6 - d20 + 1", "advantage", 2⟩
    let stamp : Stamp := ⟨0, ⟨2024, 2, 29, 12, 0, 0⟩, 1⟩
    ∃ record after,
      order.fulfil (Source.linear 3 5) stamp (.initial 0) = .ok record after ∧
        (record.rolls.length : ℤ) = 2 ∧ (record.totals.length : ℤ) = 2 ∧
        (∀ i : ℕ, record.totals[i]? = record.rolls[i]?.map Roll.total) ∧
        (∃ summary, record.summary = some summary ∧ summary.count = 2 ∧
          summary.Covers record.totals) ∧
        ∃ expr, Expression.read record.canonical = .ok expr ∧
          ∀ roll ∈ record.rolls, roll.Accounts expr := by
  intro order stamp
  have hsource := Source.linear_answersWithinBounds 3 5
  have hread : Expression.read "2d6 - d20 + 1" =
      .ok ⟨[⟨2, 6, 1⟩, ⟨1, 20, -1⟩], [⟨1, 1⟩]⟩ := by rfl
  have hexpr := Expression.wellFormed_of_readChars_eq_ok hread
  have htimes : 1 ≤ order.times := by decide
  obtain ⟨rolls, after, hrolls⟩ := hexpr.exists_ok_rollMany hsource.answers
    .advantage htimes (.initial 0)
  have hlength : order.expression.length < 2 ^ 900 :=
    length_lt_of_short (by decide)
  obtain ⟨record, hrecord, -⟩ := exists_fulfil_eq_ok stamp order
    hsource.keepsBounds hread hrolls
    (staysInRange_of_length_lt hsource.keepsBounds hlength _)
  exact ⟨record, after, hrecord,
    record_accounts (Source.linear 3 5) stamp order hrecord⟩

end Order

end TabletopDice
