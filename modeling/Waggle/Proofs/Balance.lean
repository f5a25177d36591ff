import Waggle.Proofs.Metering
import Waggle.Proofs.Reading

/-!
# Meters and parsers

When is a meter right? It is called with some levels open above a base, where the base is at least
what the number was when any of the running calls began. `Meter.Balances` says that it never goes
below the base, neither with a result nor without one, and how many levels it leaves above the base
when it gives a result: to open a level takes no level to one, to close `n` at once takes `n` to
none, and a call takes none to none. The same predicate says that it answers what a parser does: a
result and no new error, or no result and one error more, the parser's. Since an error is written
down where it is found, the rest of the way has to lead out without another one, whatever is on it
(`Meter.Reports`, `Meter.Quits`).

The base also stands above a floor. What recurs with some room left is called only on a floor that
makes up for the room that is gone, so room runs out just where a level is refused.

Here is one lemma for each way to put meters together; `Waggle.Proofs.Evenness` goes through the
functions of the grammar with them.
-/

namespace Waggle

/-! ### What even means -/

/-- What an event does to the number of open levels. A level is refused only at the limit, and no
more levels are closed than are open. -/
def LevelEvent.Moves : LevelEvent → (before : Nat) → (after : Nat) → Prop
  | .opened, before, after => after = before + 1
  | .refused, before, after => before = maxNesting ∧ after = before
  | .released levels, before, after => after + levels = before
  | .looked, before, after | .begun, before, after | .succeeded, before, after
  | .failed, before, after | .reported, before, after => after = before

/-- Moments through which the number of open levels goes from one value to another, changed by
nothing but their events. -/
def Leads (before : Nat) : List Moment → (after : Nat) → Prop
  | [], after => before = after
  | moment :: moments, after =>
    moment.event.Moves before moment.depth ∧ Leads moment.depth moments after

/-- A moment with a right number of open levels. -/
structure Moment.Balanced (moment : Moment) : Prop where
  /-- No more levels are open than may be. -/
  within : moment.depth ≤ maxNesting
  /-- No call that is running has fewer levels than when it began. -/
  above : ∀ activation ∈ moment.running, activation.entry ≤ moment.depth
  /-- Where a call begins, and where it ends with a result, as many levels are open as it says. -/
  restored : moment.event = .begun ∨ moment.event = .succeeded →
    ∀ activation ∈ moment.running.head?, moment.depth = activation.entry

/-- Moments of one part go on with those of the next. -/
theorem Leads.append {first second : List Moment} {before between after : Nat}
    (head : Leads before first between) (tail : Leads between second after) :
    Leads before (first ++ second) after := by
  induction first generalizing before with
  | nil =>
    obtain rfl : before = between := head
    exact tail
  | cons moment moments ih => exact ⟨head.1, ih head.2⟩

namespace Metered

variable {α : Type} {run : Metered α}

/-- The end of a call opens and closes nothing. -/
theorem ending_moves (run : Metered α) (depth : Nat) : run.ending.Moves depth depth := by
  unfold ending
  cases run.result <;> rfl

/-- The end of a call is no beginning. -/
theorem ending_ne_begun (run : Metered α) : run.ending ≠ .begun := by
  unfold ending
  cases run.result <;> simp

/-- A call that ends with a result has one. -/
theorem result_of_ending (ended : run.ending = .succeeded) : ∃ value, run.result = some value := by
  unfold ending at ended
  cases result : run.result with
  | some value => exact ⟨value, rfl⟩
  | none => simp [result] at ended

end Metered

/-- A cursor with `held` levels open above a base at which every running call began or below. -/
structure Cursor.Stands (cursor : Cursor) (running : List Activation) (base held : Nat) :
    Prop where
  /-- Every call began at the base or below. -/
  entered : ∀ activation ∈ running, activation.entry ≤ base
  /-- The levels above the base. -/
  depth_eq : cursor.depth = base + held
  /-- No more levels are open than may be. -/
  within : cursor.depth ≤ maxNesting

namespace Cursor.Stands

variable {cursor : Cursor} {running : List Activation} {base held : Nat}

/-- The base is not left. -/
theorem above (stands : cursor.Stands running base held) : base ≤ cursor.depth := by
  have depth := stands.depth_eq
  omega

/-- The levels above the base can be counted into it. -/
theorem raise (stands : cursor.Stands running base held) :
    cursor.Stands running (base + held) 0 where
  entered := fun activation found =>
    Nat.le_trans (stands.entered activation found) (Nat.le_add_right base held)
  depth_eq := stands.depth_eq
  within := stands.within

end Cursor.Stands

/-- A metered run above a base: all of its moments are balanced, and it never goes below the base,
with a result or without one. -/
structure Metered.Settles {α : Type} (run : Metered α) (running : List Activation)
    (before base : Nat) : Prop where
  /-- The moments tell every change of the number of open levels. -/
  leads : Leads before run.moments run.reading.cursor.depth
  /-- Every moment is balanced. -/
  balanced : ∀ moment ∈ run.moments, moment.Balanced
  /-- No call ends that was running before. -/
  inside : ∀ moment ∈ run.moments, running <:+ moment.running
  /-- What begins is a call within those. -/
  deeper : ∀ moment ∈ run.moments, moment.event = .begun → running.length < moment.running.length
  /-- The base is not left. -/
  above : base ≤ run.reading.cursor.depth
  /-- The limit is not passed. -/
  within : run.reading.cursor.depth ≤ maxNesting

namespace Metered

variable {α β : Type} {running : List Activation} {before base : Nat}

/-- A run without moments settles where it stands. -/
theorem Settles.still {result : Option α} {reading : Reading} {held : Nat}
    (stands : reading.cursor.Stands running base held) :
    Settles ⟨result, reading, []⟩ running reading.cursor.depth base where
  leads := rfl
  balanced := nofun
  inside := nofun
  deeper := nofun
  above := stands.above
  within := stands.within

/-- A run of a single moment that is neither the beginning nor the end of a call. -/
theorem Settles.single {result : Option α} {reading : Reading} {event : LevelEvent}
    (entered : ∀ activation ∈ running, activation.entry ≤ base)
    (amid : event ≠ .begun ∧ event ≠ .succeeded)
    (moves : event.Moves before reading.cursor.depth) (above : base ≤ reading.cursor.depth)
    (within : reading.cursor.depth ≤ maxNesting) :
    Settles ⟨result, reading, [⟨event, running, reading.cursor.depth⟩]⟩ running before base := by
  have moment : Moment.Balanced ⟨event, running, reading.cursor.depth⟩ := {
    within
    above := fun activation found => Nat.le_trans (entered activation found) above
    restored := fun limit => (limit.elim amid.1 amid.2).elim }
  exact {
    leads := ⟨moves, rfl⟩
    balanced := by simpa using moment
    inside := by simp
    deeper := List.forall_mem_singleton.mpr fun begun => absurd begun amid.1
    above
    within }

/-- A run that settles above a base does so above a lower one. -/
theorem Settles.lower {run : Metered α} {lower : Nat} (settles : run.Settles running before base)
    (le : lower ≤ base) : run.Settles running before lower :=
  { settles with above := Nat.le_trans le settles.above }

/-- With a result, a run goes on. -/
theorem andThen_of_some {run : Metered α} {value : α} (next : α → Reading → Metered β)
    (result : run.result = some value) :
    run.andThen next = ⟨(next value run.reading).result, (next value run.reading).reading,
      run.moments ++ (next value run.reading).moments⟩ := by
  simp only [andThen, result]

/-- Without a result, a run is over. -/
theorem andThen_of_none {run : Metered α} (next : α → Reading → Metered β)
    (result : run.result = none) : run.andThen next = ⟨none, run.reading, run.moments⟩ := by
  simp only [andThen, result]

/-- A run that goes on settles if both parts do. -/
theorem Settles.andThen {run : Metered α} {value : α} {next : α → Reading → Metered β}
    (result : run.result = some value) (head : run.Settles running before base)
    (tail : (next value run.reading).Settles running run.reading.cursor.depth base) :
    (run.andThen next).Settles running before base := by
  rw [andThen_of_some next result]
  exact {
    leads := head.leads.append tail.leads
    balanced := List.forall_mem_append.mpr ⟨head.balanced, tail.balanced⟩
    inside := List.forall_mem_append.mpr ⟨head.inside, tail.inside⟩
    deeper := List.forall_mem_append.mpr ⟨head.deeper, tail.deeper⟩
    above := tail.above
    within := tail.within }

/-- A metered run ends as a parser does: with its result, where it stands, no new error and `level`
levels, or without one and with its error as the last one. -/
def Ends (run : Metered α) (file : SourceFile) (errors : Diagnostics) (level : Nat) :
    Except SyntaxError (α × Cursor) → Prop
  | .ok (value, reached) =>
    run.result = some value ∧ run.reading = ⟨reached, errors⟩ ∧ reached.depth = level
  | .error error =>
    run.result = none ∧ run.reading.errors =
      errors.push (file.diagnose error.fault.code error.fault.message error.span)

/-- A run that ends with a result has as many levels open as it says. -/
theorem Ends.depth_eq {run : Metered α} {file : SourceFile} {errors : Diagnostics} {level : Nat}
    {outcome : Except SyntaxError (α × Cursor)} (ends : run.Ends file errors level outcome)
    {value : α} (found : run.result = some value) : run.reading.cursor.depth = level := by
  cases outcome with
  | ok ended =>
    obtain ⟨-, reading, depth⟩ := ends
    rw [reading]
    exact depth
  | error error =>
    obtain ⟨result, -⟩ := ends
    rw [found] at result
    cases result

end Metered

/-! ### Parsers that close levels -/

namespace Parser

variable {α β : Type}

/-- Closes levels at once. -/
def close (levels : Nat) : Parser Unit :=
  modify fun cursor => { cursor with depth := cursor.depth - levels }

/-- Reads, and then closes levels at once. -/
def closing (levels : Nat) (parser : Parser α) : Parser α := do
  let result ← parser
  close levels
  return result

/-- Levels are closed at the end of a sequence. -/
theorem closing_bind (levels : Nat) (parser : Parser α) (next : α → Parser β) :
    closing levels (parser >>= next) = parser >>= fun result => closing levels (next result) :=
  bind_assoc parser next _

/-- To close no level is to do nothing. -/
theorem closing_zero (parser : Parser α) : closing 0 parser = parser := bind_pure parser

/-- Levels that are closed one after the other are closed at once. -/
theorem closing_closing (levels more : Nat) (parser : Parser α) :
    closing levels (closing more parser) = closing (levels + more) parser := by
  funext cursor
  simp only [closing, bind_apply]
  rcases parser cursor with error | ⟨result, after⟩
  · rfl
  · change Except.ok (result, { after with depth := after.depth - more - levels }) =
      Except.ok (result, { after with depth := after.depth - (levels + more) })
    rw [Nat.sub_sub, Nat.add_comm more levels]

/-- A level of its own is opened, and closed at the end. -/
theorem nested_eq (parser : Parser α) : nested parser = enter >>= fun _ => closing 1 parser := rfl

end Parser

namespace Meter

variable {α β : Type} {floor before between after levels : Nat}

/-- On every base above a floor, a meter that begins at a cursor with `before` levels open above the
base ends as a parser with this outcome, with `after` levels open there if it gives a result. -/
def BalancesAt (floor before after : Nat) (meter : Meter α) (cursor : Cursor)
    (outcome : Except SyntaxError (α × Cursor)) : Prop :=
  ∀ file running errors base, floor ≤ base → cursor.Stands running base before →
    (meter file running ⟨cursor, errors⟩).Settles running cursor.depth base ∧
      (meter file running ⟨cursor, errors⟩).Ends file errors (base + after) outcome

/-- At every cursor a meter balances and ends as a parser does. -/
def Balances (floor before after : Nat) (meter : Meter α) (parser : Parser α) : Prop :=
  ∀ cursor, BalancesAt floor before after meter cursor (parser cursor)

/-- With `levels` levels open a meter only finds its way out: it gives no result, and writes nothing
down. -/
def Quits (levels : Nat) (meter : Meter α) : Prop :=
  ∀ file running reading base, reading.cursor.Stands running base levels →
    (meter file running reading).Settles running reading.cursor.depth base ∧
      (meter file running reading).result = none ∧
      (meter file running reading).reading.errors = reading.errors

/-- At a cursor a meter writes down one error, goes on with a value, and leaves the levels as they
are. -/
def Reports (floor levels : Nat) (meter : Meter α) (cursor : Cursor) (value : α)
    (error : SyntaxError) : Prop :=
  ∀ file running errors base, floor ≤ base → cursor.Stands running base levels →
    (meter file running ⟨cursor, errors⟩).Settles running cursor.depth base ∧
      (meter file running ⟨cursor, errors⟩).result = some value ∧
      (meter file running ⟨cursor, errors⟩).reading.cursor.depth = cursor.depth ∧
      (meter file running ⟨cursor, errors⟩).reading.errors =
        errors.push (file.diagnose error.fault.code error.fault.message error.span)

/-! ### Ways out -/

/-- Levels that are open are closed at once. -/
theorem release_settles (file : SourceFile) {running : List Activation} {reading : Reading}
    {base : Nat} (stands : reading.cursor.Stands running base levels) :
    (release levels file running reading).Settles running reading.cursor.depth base := by
  have depth := stands.depth_eq
  have within := stands.within
  apply Metered.Settles.single stands.entered (by simp)
  · change reading.cursor.depth - levels + levels = reading.cursor.depth
    omega
  · change base ≤ reading.cursor.depth - levels
    omega
  · change reading.cursor.depth - levels ≤ maxNesting
    omega

namespace Quits

/-- To stop is a way out. -/
theorem stop : Quits levels (Meter.stop : Meter α) :=
  fun _ _ _ _ stands => ⟨.still stands, rfl, rfl⟩

/-- To close all levels without a result is a way out. -/
theorem release : Quits levels (do Meter.release levels; give none : Meter α) := by
  intro file running reading base stands
  have closed := release_settles file stands
  have stands' : (Meter.release levels file running reading).reading.cursor.Stands running base 0 :=
    ⟨stands.entered, by
      have depth := stands.depth_eq
      change reading.cursor.depth - levels = base
      omega, closed.within⟩
  exact ⟨closed.andThen rfl (.still stands'), rfl, rfl⟩

end Quits

namespace Reports

variable {cursor : Cursor} {meter : Meter α} {value : α} {error : SyntaxError}

/-- After an error a way out leads where a parser fails. -/
theorem quit {next : α → Meter β} (reports : Reports floor levels meter cursor value error)
    (out : Quits levels (next value)) :
    BalancesAt floor levels after (meter >>= next) cursor (.error error) := by
  intro file running errors base low stands
  obtain ⟨settles, result, depth, told⟩ := reports file running errors base low stands
  have stays : (meter file running ⟨cursor, errors⟩).reading.cursor.Stands running base levels :=
    ⟨stands.entered, depth.trans stands.depth_eq, settles.within⟩
  obtain ⟨further, nothing, same⟩ := out file running _ base stays
  refine ⟨settles.andThen result further, ?_⟩
  change ((meter file running ⟨cursor, errors⟩).andThen _).Ends _ _ _ _
  rw [Metered.andThen_of_some _ result]
  exact ⟨nothing, same.trans told⟩

/-- An error is written down at a span. -/
theorem reportAt (fault : SyntaxFault) (span : Span) :
    Reports floor levels (Meter.reportAt fault.code fault.message span) cursor () ⟨fault, span⟩ :=
  fun _ _ _ _ _ stands =>
    ⟨.single stands.entered (by simp) rfl stands.above stands.within, rfl, rfl, rfl⟩

/-- An error is written down at the next token. -/
theorem report (fault : SyntaxFault) :
    Reports floor levels (Meter.report fault.code fault.message) cursor () ⟨fault, cursor.span⟩ :=
  reportAt fault cursor.span

/-- Where all levels are open, one more is refused. -/
theorem refuse (full : maxNesting ≤ floor + levels) :
    Reports floor levels Meter.refuse cursor () ⟨.nestingTooDeep, cursor.span⟩ := by
  intro file running errors base low stands
  have depth := stands.depth_eq
  have within := stands.within
  have limit : cursor.depth = maxNesting := by omega
  exact ⟨.single stands.entered (by simp) ⟨limit, rfl⟩ stands.above within, rfl, rfl, rfl⟩

/-- Who asks for a level where all of them are open is told that it is refused. -/
theorem enter (deep : maxNesting ≤ cursor.depth) :
    Reports floor levels Meter.enter cursor false ⟨.nestingTooDeep, cursor.span⟩ := by
  intro file running errors base low stands
  have limit : cursor.depth = maxNesting := Nat.le_antisymm stands.within deep
  have beyond : maxNesting < cursor.depth + 1 := Nat.lt_succ_of_le deep
  have refused : Meter.enter file running ⟨cursor, errors⟩ =
      (do Meter.refuse; return false : Meter Bool) file running ⟨cursor, errors⟩ := by
    unfold Meter.enter
    exact if_pos beyond
  rw [refused]
  exact ⟨.single stands.entered (by simp) ⟨limit, rfl⟩ stands.above stands.within, rfl, rfl, rfl⟩

end Reports

/-! ### At a cursor -/

namespace BalancesAt

variable {cursor reached : Cursor} {meter : Meter α} {value : α}

/-- A meter that gives a result is followed by another one. -/
theorem bind {next : α → Meter β} {outcome : Except SyntaxError (β × Cursor)}
    (first : BalancesAt floor before between meter cursor (.ok (value, reached)))
    (second : BalancesAt floor between after (next value) reached outcome) :
    BalancesAt floor before after (meter >>= next) cursor outcome := by
  intro file running errors base low stands
  obtain ⟨head, result, reading, depth⟩ := first file running errors base low stands
  have arrived : reached.Stands running base between := by
    refine ⟨stands.entered, depth, ?_⟩
    have within := head.within
    rw [reading] at within
    exact within
  obtain ⟨tail, ends⟩ := second file running errors base low arrived
  rw [← reading] at tail ends
  refine ⟨head.andThen result ?_, ?_⟩
  · rw [reading] at tail ⊢
    exact tail
  · change ((meter file running ⟨cursor, errors⟩).andThen _).Ends _ _ _ _
    rw [Metered.andThen_of_some _ result]
    exact ends

/-- A meter that gives no result is followed by nothing. -/
theorem fail {next : α → Meter β} {error : SyntaxError}
    (first : BalancesAt floor before between meter cursor (.error error)) :
    BalancesAt floor before after (meter >>= next) cursor (.error error) := by
  intro file running errors base low stands
  obtain ⟨settles, result, told⟩ := first file running errors base low stands
  change ((meter file running ⟨cursor, errors⟩).andThen _).Settles _ _ _ ∧
    ((meter file running ⟨cursor, errors⟩).andThen _).Ends _ _ _ _
  rw [Metered.andThen_of_none _ result]
  exact ⟨{ settles with }, rfl, told⟩

/-- A result that is given changes nothing. -/
theorem pure (value : α) :
    BalancesAt floor before before (Pure.pure value) cursor (.ok (value, cursor)) :=
  fun _ _ _ _ _ stands => ⟨.still stands, rfl, rfl, stands.depth_eq⟩

/-- Something is told of the cursor. -/
theorem look (tell : Cursor → α) :
    BalancesAt floor before before (Meter.look tell) cursor (.ok (tell cursor, cursor)) :=
  fun _ _ _ _ _ stands =>
    ⟨.single stands.entered (by simp) rfl stands.above stands.within, rfl, rfl, stands.depth_eq⟩

/-- A token is stepped over. -/
theorem advance :
    BalancesAt floor before before Meter.advance cursor
      (.ok (cursor.rest.head?, cursor.advance)) := by
  intro file running errors base low stands
  have same := cursor.depth_advance
  have above : base ≤ cursor.advance.depth := same ▸ stands.above
  have within : cursor.advance.depth ≤ maxNesting := same ▸ stands.within
  exact ⟨.single stands.entered (by simp) same above within, rfl, rfl,
    same.trans stands.depth_eq⟩

/-- A token is stepped over and forgotten. -/
theorem skip : BalancesAt floor before before Meter.skip cursor (.ok ((), cursor.advance)) :=
  advance.bind (.pure ())

/-- A symbol that is there is stepped over. -/
theorem expect {symbol : Symbol} (context : String) (found : cursor.kind = .symbol symbol) :
    BalancesAt floor before before (Meter.expect symbol context) cursor
      (.ok ((), cursor.advance)) := by
  -- The end of the input is no symbol, so there is a token to answer.
  obtain ⟨token, there⟩ : ∃ token, cursor.rest.head? = some token := by
    cases ahead : cursor.rest with
    | nil => simp [Cursor.kind, ahead] at found
    | cons token rest => exact ⟨token, rfl⟩
  apply (look Cursor.kind).bind
  rw [if_pos found]
  apply advance.bind
  rw [there]
  exact (pure token).bind (pure ())

/-- A name that is there is stepped over. -/
theorem expectIdentifier {name : String} (found : cursor.kind = .identifier name) :
    BalancesAt floor before before Meter.expectIdentifier cursor
      (.ok (⟨name, cursor.span⟩, cursor.advance)) := by
  apply (look Cursor.kind).bind
  rw [found]
  exact (look Cursor.span).bind (skip.bind (pure _))

/-- The place of the next token is told. -/
theorem nextSpan {next : Span → Meter α} {later : Span → Parser α}
    (rest : BalancesAt floor before after (next cursor.span) cursor (later cursor.span cursor)) :
    BalancesAt floor before after (Meter.nextSpan >>= next) cursor
      ((Parser.nextSpan >>= later) cursor) :=
  (look Cursor.span).bind rest

/-- The next kind is looked at. -/
theorem peek {next : TokenKind → Meter α} {later : TokenKind → Parser α}
    (rest : BalancesAt floor before after (next cursor.kind) cursor (later cursor.kind cursor)) :
    BalancesAt floor before after (Meter.peek >>= next) cursor ((Parser.peek >>= later) cursor) :=
  (look Cursor.kind).bind rest

/-- The second kind is looked at. -/
theorem peekSecond {next : TokenKind → Meter α} {later : TokenKind → Parser α}
    (rest : BalancesAt floor before after (next cursor.secondKind) cursor
      (later cursor.secondKind cursor)) :
    BalancesAt floor before after (Meter.peekSecond >>= next) cursor
      ((Parser.peekSecond >>= later) cursor) :=
  (look Cursor.secondKind).bind rest

/-- A name with a symbol behind it is stepped over where both are there. -/
theorem named {name : String} {symbol : Symbol} {context : String} {next : Ident → Meter α}
    {later : Parser α} (first : cursor.kind = .identifier name)
    (second : cursor.secondKind = .symbol symbol)
    (rest : Balances floor before after (next ⟨name, cursor.span⟩) later) :
    BalancesAt floor before after
      (do
        let ident ← Meter.expectIdentifier
        Meter.expect symbol context
        next ident)
      cursor ((do Parser.skip; Parser.skip; later : Parser α) cursor) :=
  (expectIdentifier first).bind
    ((expect context (cursor.kind_advance.trans second)).bind (rest cursor.advance.advance))

/-- A level is opened where one is left. -/
theorem enter (room : ¬maxNesting ≤ cursor.depth) :
    BalancesAt floor before (before + 1) Meter.enter cursor
      (.ok (true, { cursor with depth := cursor.depth + 1 })) := by
  intro file running errors base low stands
  have depth := stands.depth_eq
  have within : cursor.depth + 1 ≤ maxNesting := by omega
  have opened : Meter.enter file running ⟨cursor, errors⟩ =
      ⟨some true, ⟨{ cursor with depth := cursor.depth + 1 }, errors⟩,
        [⟨.opened, running, cursor.depth + 1⟩]⟩ := by
    unfold Meter.enter
    exact if_neg (Nat.not_lt.mpr within)
  rw [opened]
  refine ⟨.single stands.entered (by simp) rfl ?_ within, rfl, rfl, ?_⟩
  · change base ≤ cursor.depth + 1
    omega
  · change cursor.depth + 1 = base + (before + 1)
    omega

end BalancesAt

/-! ### Everywhere -/

namespace Balances

/-- The floor may be higher. -/
theorem mono {meter : Meter α} {parser : Parser α} {higher : Nat}
    (inner : Balances floor before after meter parser) (le : floor ≤ higher) :
    Balances higher before after meter parser :=
  fun cursor file running errors base low =>
    inner cursor file running errors base (Nat.le_trans le low)

/-- A result that is given changes nothing. -/
theorem pure (value : α) :
    Balances floor before before (Pure.pure value : Meter α) (Pure.pure value : Parser α) :=
  fun _ => .pure value

/-- Two meters are run one after the other. -/
theorem bind {meter : Meter α} {parser : Parser α} {next : α → Meter β} {later : α → Parser β}
    (first : Balances floor before between meter parser)
    (second : ∀ value, Balances floor between after (next value) (later value)) :
    Balances floor before after (meter >>= next) (parser >>= later) := by
  intro cursor
  have head := first cursor
  rw [Parser.bind_apply]
  cases ran : parser cursor with
  | error error =>
    rw [ran] at head
    exact head.fail
  | ok ended =>
    rw [ran] at head
    exact head.bind (second ended.1 ended.2)

/-- A result is wrapped. -/
theorem map {meter : Meter α} {parser : Parser α} (wrap : α → β)
    (inner : Balances floor before after meter parser) :
    Balances floor before after (wrap <$> meter) (wrap <$> parser) :=
  inner.bind fun value => .pure (wrap value)

/-- What balances everywhere does so at a cursor. -/
theorem at_cursor {meter : Meter α} {parser : Parser α} (cursor : Cursor)
    (balances : Balances floor before after meter parser) :
    BalancesAt floor before after meter cursor (parser cursor) :=
  balances cursor

/-- The next kind is looked at. -/
theorem peek : Balances floor before before Meter.peek Parser.peek := fun _ => .look _

/-- The second kind is looked at. -/
theorem peekSecond : Balances floor before before Meter.peekSecond Parser.peekSecond :=
  fun _ => .look _

/-- The place of the next token is told. -/
theorem nextSpan : Balances floor before before Meter.nextSpan Parser.nextSpan := fun _ => .look _

/-- The place of the last token is told. -/
theorem previousSpan : Balances floor before before Meter.previousSpan Parser.previousSpan :=
  fun _ => .look _

/-- The tokens left are counted. -/
theorem remaining : Balances floor before before Meter.remaining Parser.remaining :=
  fun _ => .look _

/-- A token is stepped over. -/
theorem skip : Balances floor before before Meter.skip Parser.skip := fun _ => .skip

/-- A token is accepted or stays where it is. -/
theorem accept (kind : TokenKind) :
    Balances floor before before (Meter.accept kind) (Parser.accept kind) := by
  refine peek.bind fun found => ?_
  by_cases same : found = kind
  · rw [if_pos same, if_pos same]
    exact skip.bind fun _ => pure true
  · rw [if_neg same, if_neg same]
    exact pure false

/-- A fault is written down at the next token, and nothing is read. -/
theorem fail (fault : SyntaxFault) :
    Balances floor before after
      (do Meter.report fault.code fault.message; Meter.stop : Meter α) (Parser.fail fault) :=
  fun _ => (Reports.report fault).quit .stop

/-- A fault is written down at a span, and nothing is read. -/
theorem failAt (fault : SyntaxFault) (span : Span) :
    Balances floor before after
      (do Meter.reportAt fault.code fault.message span; Meter.stop : Meter α)
      (Parser.failAt fault span) :=
  fun _ => (Reports.reportAt fault span).quit .stop

/-- A symbol is stepped over where it is expected. -/
theorem expect (symbol : Symbol) (place : Place) :
    Balances floor before before (Meter.expect symbol place.phrase)
      (Parser.expect symbol place) := by
  intro cursor
  rw [Parser.expect_apply]
  by_cases found : cursor.kind = .symbol symbol
  · rw [if_pos found]
    exact .expect place.phrase found
  · rw [if_neg found]
    apply (BalancesAt.look Cursor.kind).bind
    rw [if_neg found]
    exact (Reports.report (.expectedSymbol symbol place cursor.kind)).quit .stop

/-- What is read up to a symbol is made from where the symbol is. -/
theorem upTo (symbol : Symbol) (place : Place) (build : Span → α) :
    Balances floor before before
      (do Meter.expect symbol place.phrase; return build (← Meter.previousSpan) : Meter α)
      (do Parser.expect symbol place; return build (← Parser.previousSpan) : Parser α) :=
  (expect symbol place).bind fun _ => previousSpan.bind fun last => pure (build last)

/-- Where all levels are open, one more is refused. -/
theorem refuse {next : Meter α} (full : maxNesting ≤ floor + before) (out : Quits before next) :
    Balances floor before after (do Meter.refuse; next) (Parser.fail .nestingTooDeep) :=
  fun _ => (Reports.refuse full).quit out

/-- A level is opened as a parser does it, and if none is left the way leads out. -/
theorem enter {next : Bool → Meter α} {parser : Parser α}
    (inner : Balances floor (before + 1) after (next true) parser)
    (out : Quits before (next false)) :
    Balances floor before after (Meter.enter >>= next) (Parser.enter >>= fun _ => parser) := by
  intro cursor
  rw [Parser.bind_apply, Parser.enter_apply]
  by_cases deep : maxNesting ≤ cursor.depth
  · rw [if_pos deep]
    exact (Reports.enter deep).quit out
  · rw [if_neg deep]
    exact (BalancesAt.enter deep).bind (inner _)

/-- Levels that are open are closed at once. -/
theorem release : Balances floor levels 0 (Meter.release levels) (Parser.close levels) := by
  intro cursor file running errors base low stands
  have depth := stands.depth_eq
  have lowered : cursor.depth - levels = base := by omega
  exact ⟨release_settles file stands, rfl, rfl, lowered⟩

/-- What is read above levels that are open leaves them open. -/
theorem held {meter : Meter α} {parser : Parser α}
    (inner : Balances (floor + levels) 0 after meter parser) :
    Balances floor levels (levels + after) meter parser := by
  intro cursor file running errors base low stands
  have ran := inner cursor file running errors (base + levels) (Nat.add_le_add_right low levels)
    stands.raise
  rw [Nat.add_assoc] at ran
  exact ⟨ran.1.lower (Nat.le_add_right base levels), ran.2⟩

/-- What is read above levels that are open goes on as a parser does with its result, and without
one it leads out. -/
theorem attempt {meter : Meter α} {parser : Parser α} {next : Option α → Meter β}
    {later : α → Parser β} (inner : Balances (floor + levels) 0 0 meter parser)
    (found : ∀ value, Balances floor levels after (next (some value)) (later value))
    (out : Quits levels (next none)) :
    Balances floor levels after (Meter.attempt meter >>= next) (parser >>= later) := by
  intro cursor
  have above := inner cursor
  have kept := inner.held cursor
  rw [Parser.bind_apply]
  cases ran : parser cursor with
  | ok ended =>
    rw [ran] at kept
    have tried : BalancesAt floor levels levels (Meter.attempt meter) cursor
        (.ok (some ended.1, ended.2)) := by
      intro file running errors base low stands
      obtain ⟨settles, result, rest⟩ := kept file running errors base low stands
      exact ⟨{ settles with }, congrArg some result, rest⟩
    exact tried.bind (found ended.1 ended.2)
  | error error =>
    rw [ran] at above
    intro file running errors base low stands
    obtain ⟨settles, result, told⟩ := above file running errors (base + levels)
      (Nat.add_le_add_right low levels) stands.raise
    let tried := Meter.attempt meter file running ⟨cursor, errors⟩
    -- All levels are still there, so wherever reading ended is a place to find the way out from.
    have left : base + levels ≤ tried.reading.cursor.depth := settles.above
    have there : tried.reading.cursor.Stands running (tried.reading.cursor.depth - levels)
        levels := {
      entered := fun activation member =>
        Nat.le_trans (stands.entered activation member) (by omega)
      depth_eq := by omega
      within := settles.within }
    obtain ⟨further, nothing, same⟩ := out file running tried.reading _ there
    have given : tried.result = some none := congrArg some result
    have begun : tried.Settles running cursor.depth base :=
      { settles.lower (Nat.le_add_right base levels) with }
    refine ⟨begun.andThen given (further.lower (by omega)), ?_⟩
    change (tried.andThen _).Ends _ _ _ _
    rw [Metered.andThen_of_some _ given]
    exact ⟨nothing, same.trans told⟩

/-- A call that gives a result ends with as many open levels as it began with. -/
theorem call {meter : Meter α} {parser : Parser α} (routine : Routine)
    (inner : Balances floor 0 0 meter parser) :
    Balances floor 0 0 (Meter.call routine meter) parser := by
  intro cursor file running errors base low stands
  let inside : List Activation := ⟨routine, cursor.depth⟩ :: running
  have entered : ∀ activation ∈ inside, activation.entry ≤ cursor.depth := by
    intro activation found
    rcases List.mem_cons.mp found with rfl | found
    · exact Nat.le_refl _
    · exact Nat.le_trans (stands.entered activation found) stands.above
  obtain ⟨ran, ends⟩ := inner cursor file inside errors cursor.depth
    (Nat.le_trans low stands.above) ⟨entered, rfl, stands.within⟩
  let run := meter file inside ⟨cursor, errors⟩
  have begun : Moment.Balanced ⟨.begun, inside, cursor.depth⟩ := {
    within := stands.within
    above := entered
    restored := fun _ activation found => by
      obtain rfl : ⟨routine, cursor.depth⟩ = activation := Option.some.inj found
      rfl }
  have ended : Moment.Balanced ⟨run.ending, inside, run.reading.cursor.depth⟩ := {
    within := ran.within
    above := fun activation found => Nat.le_trans (entered activation found) ran.above
    restored := fun limit activation found => by
      obtain rfl : ⟨routine, cursor.depth⟩ = activation := Option.some.inj found
      obtain ⟨value, result⟩ := Metered.result_of_ending (limit.resolve_left run.ending_ne_begun)
      exact ends.depth_eq result }
  have kept : running <:+ inside := List.suffix_cons _ _
  have longer : running.length < inside.length := Nat.lt_succ_self running.length
  have last : Leads run.reading.cursor.depth
      [⟨run.ending, inside, run.reading.cursor.depth⟩] run.reading.cursor.depth :=
    ⟨run.ending_moves _, rfl⟩
  refine ⟨?_, ?_⟩
  · exact {
      leads := ⟨rfl, ran.leads.append last⟩
      balanced := List.forall_mem_cons.mpr
        ⟨begun, List.forall_mem_append.mpr ⟨ran.balanced, List.forall_mem_singleton.mpr ended⟩⟩
      inside := List.forall_mem_cons.mpr ⟨kept, List.forall_mem_append.mpr
        ⟨fun moment found => kept.trans (ran.inside moment found),
          List.forall_mem_singleton.mpr kept⟩⟩
      deeper := List.forall_mem_cons.mpr ⟨fun _ => longer, List.forall_mem_append.mpr
        ⟨fun moment found begun => Nat.lt_trans longer (ran.deeper moment found begun),
          List.forall_mem_singleton.mpr fun _ => longer⟩⟩
      above := Nat.le_trans stands.above ran.above
      within := ran.within }
  · rw [Nat.add_zero, ← Nat.add_zero base, ← stands.depth_eq]
    exact ends

/-- A level of its own is opened and closed as a parser does it. -/
theorem nested {meter : Meter α} {parser : Parser α}
    (inner : Balances (floor + 1) 0 0 meter parser) :
    Balances floor 0 0 (Meter.nested meter) (Parser.nested parser) := by
  rw [Parser.nested_eq]
  exact enter (attempt inner (fun value => release.bind fun _ => pure value) .release) .stop

end Balances

end Meter

end Waggle
