import KalshiMaker.Engine.Attempts
import KalshiMaker.Net.ScriptedHost

/-! After a rejection the quoter leaves the market alone for the length of a cooldown, where the rejection
throws and the market is quoted off its feed. -/
namespace Kalshi

open Effect Eff Desk TradingSession

variable {F X : Type} [Floating F]

/-- A refused order, or an amend and the cancel after it, both refused. -/
inductive Rejection : List (Call F) → Prop where
  | place {call : Call F} (refused : call.refused = true) : Rejection [call]
  | amendAndCancel {orderId : OrderId} {ticker : Ticker} {side : Side} {priceCents : Int} {count : Quantity} :
      Rejection [.amend orderId ticker side priceCents count none, .cancel orderId false]

namespace Attempt

variable (venue : Venue X) (attempt : Attempt F X)

/-- Some writes of the update are rejected, and `rest` are those after them. -/
def RejectedThen (rest : List (Entry F)) : Prop :=
  ∃ earlier rejected, attempt.writes venue = earlier ++ rejected ++ rest ∧ Rejection (rejected.map Entry.call)

def Rejected : Prop := ∃ rest, attempt.RejectedThen venue rest

/-- The update threw. -/
def Threw : Prop := ∃ what, (attempt.updated venue).1 = .error (.exception what)

/-- An amend and the cancel after it are both answered with a refusal, so that nothing is thrown there. -/
def AnsweredTwice : Prop :=
  ∃ earlier rejected rest, attempt.writes venue = earlier ++ rejected ++ rest ∧ rejected.length = 2 ∧
    Rejection (rejected.map Entry.call) ∧ ¬ (rest = [] ∧ attempt.Threw venue)

/-- A seeding finds no cooldown, and no write of it is rejected. Elsewhere no amend and cancel are both answered with a
refusal. -/
def Contained : Prop :=
  if attempt.seeding then
    (∀ deadline, attempt.desk.session.cooldownUntil attempt.ticker = some deadline → deadline ≤ attempt.time) ∧
      ¬ attempt.Rejected venue
  else ¬ attempt.AnsweredTwice venue

end Attempt

/-- Nothing is written in an update after a rejection, and nothing in a later update of the market before the cooldown
has elapsed. -/
structure BacksOff (venue : Venue X) (cooldown : Int) (attempts : List (Attempt F X)) : Prop where
  stops : ∀ attempt ∈ attempts, ∀ rest, attempt.RejectedThen venue rest → rest = []
  waits : attempts.Pairwise fun earlier later => earlier.ticker = later.ticker → earlier.Rejected venue →
    later.writes venue ≠ [] → earlier.endTime venue + cooldown ≤ later.time

omit [Floating F] in
theorem Rejection.cases {entries : List (Entry F)} (rejection : Rejection (entries.map Entry.call)) :
    (∃ entry, entries = [entry] ∧ entry.call.refused = true) ∨ entries.length = 2 := by
  generalize mapped : entries.map Entry.call = calls at rejection
  cases rejection with
  | place refused =>
    obtain ⟨entry, rfl, rfl⟩ := List.map_eq_singleton_iff.mp mapped
    exact .inl ⟨entry, rfl, refused⟩
  | amendAndCancel => exact .inr (by simpa using congrArg List.length mapped)

/-! ### One attempt -/

variable {venue : Venue X} {attempt : Attempt F X}

namespace Attempt

/-- A refused order is the last write of its update, which throws. -/
theorem refused_last {earlier rest : List (Entry F)} {entry : Entry F}
    (writes : attempt.writes venue = earlier ++ [entry] ++ rest) (refused : entry.call.refused = true) :
    rest = [] ∧ attempt.Threw venue := by
  have within : entry ∈ attempt.writes venue := by simp [writes]
  rcases Quoter.update_refused venue attempt.ticker attempt.book attempt.desk with
    ⟨later, calls, silent⟩ | ⟨threw, later, last, calls, _, silent⟩
  · rw [Attempt.writes, Attempt.updated, Desk.callsSince_of_append calls] at within
    rw [silent entry within] at refused
    cases refused
  · refine ⟨?_, threw⟩
    rw [List.append_assoc] at calls
    rw [Attempt.writes, Attempt.updated, Desk.callsSince_of_append calls] at writes
    rcases List.eq_nil_or_concat rest with none | ⟨more, final, rfl⟩
    · exact none
    · rw [List.concat_eq_append, ← List.append_assoc] at writes
      have among : entry ∈ later := by
        rw [(List.append_inj' writes rfl).1]
        simp
      rw [silent entry among] at refused
      cases refused

theorem Contained.stops (contained : attempt.Contained venue) {rest : List (Entry F)}
    (rejected : attempt.RejectedThen venue rest) :
    rest = [] ∧ attempt.seeding = false ∧ attempt.Threw venue := by
  unfold Contained at contained
  cases seeding : attempt.seeding with
  | true =>
    rw [if_pos seeding] at contained
    exact absurd ⟨rest, rejected⟩ contained.2
  | false =>
    rw [if_neg (by simp [seeding])] at contained
    obtain ⟨earlier, refused, writes, rejection⟩ := rejected
    rcases rejection.cases with ⟨entry, rfl, refused⟩ | two
    · obtain ⟨last, threw⟩ := refused_last writes refused
      exact ⟨last, rfl, threw⟩
    · by_contra wentOn
      exact contained ⟨earlier, refused, rest, writes, two, rejection, fun ended => wentOn ⟨ended.1, rfl, ended.2⟩⟩

/-! ### Cooldowns along the attempts -/

/-- A failed update off the feed starts a cooldown; nothing else of an attempt touches one. -/
theorem after_cooldowns (attempt : Attempt F X) :
    (attempt.after venue).cooldowns = attempt.desk.cooldowns ∧ (attempt.Threw venue → attempt.seeding = true) ∨
      (attempt.after venue).cooldowns =
        (Function.update attempt.desk.session.cooldownUntil attempt.ticker
          (some (attempt.endTime venue + attempt.desk.session.errorCooldownMs * nanosPerMilli)),
          attempt.desk.session.errorCooldownMs) := by
  have session : (attempt.updated venue).2.session = attempt.desk.session :=
    congrArg Prod.fst (Quoter.update_looked venue attempt.ticker attempt.book attempt.desk)
  unfold Attempt.after Attempt.run Attempt.endTime Attempt.Threw quoteOrCoolDown
  unfold Attempt.updated at session ⊢
  cases attempt.seeding with
  | true =>
    rw [if_pos rfl, tryCatch_apply]
    cases ran : Quoter.update venue attempt.ticker attempt.book attempt.desk with
    | mk r t =>
      rw [ran] at session
      refine .inl ⟨?_, fun _ => rfl⟩
      unfold Desk.cooldowns
      -- seeding catches whatever is thrown and sets no cooldown
      rcases r with (what | what) | _
      · exact congrArg (fun session : TradingSession F => (session.cooldownUntil, session.errorCooldownMs)) session
      · exact congrArg (fun session : TradingSession F => (session.cooldownUntil, session.errorCooldownMs)) session
      · exact congrArg (fun session : TradingSession F => (session.cooldownUntil, session.errorCooldownMs)) session
  | false =>
    rw [if_neg Bool.false_ne_true, tryCatch_apply]
    cases ran : Quoter.update venue attempt.ticker attempt.book attempt.desk with
    | mk r t =>
      rw [ran] at session
      unfold Desk.cooldowns
      rcases r with (what | what) | _
      -- an exception off the feed starts the cooldown; an abort is not caught
      · right
        rw [← session]
        rfl
      · left
        refine ⟨congrArg (fun session : TradingSession F => (session.cooldownUntil, session.errorCooldownMs))
          session, ?_⟩
        rintro ⟨_, threw⟩
        cases threw
      · left
        refine ⟨congrArg (fun session : TradingSession F => (session.cooldownUntil, session.errorCooldownMs))
          session, ?_⟩
        rintro ⟨_, threw⟩
        cases threw

end Attempt

/-- An attempt off the feed comes after the market's cooldown. -/
def Attempt.Asked (attempt : Attempt F X) : Prop :=
  attempt.seeding = false →
    ∀ deadline, attempt.desk.session.cooldownUntil attempt.ticker = some deadline → deadline ≤ attempt.time

variable (venue)

theorem attemptUnlessCooling_asked (ticker : Ticker) (book : LocalOrderbook) (s : Desk F X) :
    ∀ attempt ∈ attemptUnlessCooling venue ticker book s, attempt.Asked := by
  intro attempt member
  unfold attemptUnlessCooling at member
  cases cooling : s.session.cooldownUntil ticker with
  | none =>
    have asked : coolingDown venue ticker s = (.ok false, s) := by
      unfold coolingDown
      rw [bind_apply, get_apply, andThen_ok, cooling]
      rfl
    rw [asked] at member
    rw [List.mem_singleton.mp member]
    intro _ deadline found
    exact absurd (cooling.symm.trans found) nofun
  | some deadline =>
    have asked : coolingDown venue ticker s = (.ok (decide ((venue.host.steadyNow s.outside).1 < deadline)),
        { s with outside := (venue.host.steadyNow s.outside).2 }) := by
      unfold coolingDown
      rw [bind_apply, get_apply, andThen_ok, cooling]
      rfl
    rw [asked] at member
    -- an update is attempted at the very deadline, or after it
    by_cases before : (venue.host.steadyNow s.outside).1 < deadline
    · rw [decide_eq_true before] at member
      cases member
    · rw [decide_eq_false before] at member
      rw [List.mem_singleton.mp member]
      intro _ other found
      cases cooling.symm.trans found
      exact not_lt.mp before

theorem requoteAttempts_asked (tickers : List Ticker) (s : Desk F X) :
    ∀ attempt ∈ requoteAttempts venue tickers s, attempt.Asked := by
  induction tickers generalizing s with
  | nil => exact fun _ member => by cases member
  | cons ticker tickers ih =>
    intro attempt member
    unfold requoteAttempts at member
    rcases List.mem_append.mp member with here | later
    · unfold requoteAttempt at here
      split at here
      · split at here
        · exact attemptUnlessCooling_asked venue _ _ _ attempt here
        · cases here
      · cases here
    · split at later
      · exact ih _ attempt later
      · cases later

theorem Event.attempts_asked (event : Event F) (s : Desk F X) :
    ∀ attempt ∈ event.attempts venue s, attempt.Asked := by
  intro attempt member
  cases event with
  | delta ticker side priceCents qty =>
    unfold Event.attempts deltaAttempts at member
    dsimp only at member
    split at member
    · exact attemptUnlessCooling_asked venue _ _ _ attempt member
    · cases member
  -- adding and seeding a market ask for no cooldown, and owe none of this
  | addMarket seed =>
    rw [List.mem_singleton.mp member]
    intro seeding
    cases seeding
  | seedOrderbook seed =>
    rw [List.mem_singleton.mp member]
    intro seeding
    cases seeding
  | requoteIdleMarkets =>
    unfold Event.attempts at member
    dsimp only at member
    split at member
    · cases member
    · exact requoteAttempts_asked venue _ _ attempt member
  | _ => cases member

theorem Process.attempts_asked (p : Process F X) (events : List (Event F)) :
    ∀ attempt ∈ p.attempts venue events, attempt.Asked := by
  induction events generalizing p with
  | nil => exact fun _ member => by cases member
  | cons event events ih =>
    intro attempt member
    rcases List.mem_append.mp member with here | later
    · split at here
      · exact event.attempts_asked venue p.desk attempt here
      · cases here
    · exact ih _ attempt later

/-- Cooldowns change in the attempts of a run only. -/
theorem Process.attempts_thread (p : Process F X) (events : List (Event F)) :
    Threads venue cooldowns p.desk.cooldowns (p.attempts venue events) (p.run venue events).desk.cooldowns := by
  induction events generalizing p with
  | nil => rfl
  | cons event events ih =>
    refine Threads.append ?_ (ih (p.dispatch venue event))
    have handled := event.cooldowns_thread venue p.desk
    cases alive : p.alive with
    | false =>
      rw [dispatch_dead venue alive]
      rfl
    | true =>
      rw [if_pos rfl]
      rcases dispatch_alive venue alive event with done | ⟨_, ended⟩
      · rw [done]
        exact handled
      · rw [ended]
        dsimp only
        rw [cancelAllQuotes_cooldowns]
        exact handled

/-! ### Whole runs -/

variable {venue} {attempts : List (Attempt F X)} {c c' : (Ticker → Option TimePoint) × Int}

/-- Once a market cools down, it is not updated before that is over. -/
theorem Threads.held (threads : Threads venue cooldowns c attempts c')
    (asked : ∀ attempt ∈ attempts, attempt.Asked) (contained : ∀ attempt ∈ attempts, attempt.Contained venue)
    {ticker : Ticker} {since deadline : TimePoint} (cools : c.1 ticker = some deadline)
    (held : since + c.2 * nanosPerMilli ≤ deadline) (steady : ∀ attempt ∈ attempts, since ≤ attempt.endTime venue) :
    ∀ attempt ∈ attempts, attempt.ticker = ticker → since + c.2 * nanosPerMilli ≤ attempt.time := by
  induction attempts generalizing c deadline with
  | nil => exact fun _ member => by cases member
  | cons first attempts ih =>
    obtain ⟨rfl, rest⟩ := threads
    -- a seeding must be contained, any other attempt asked for the cooldown itself
    have expired : first.ticker = ticker → since + first.desk.cooldowns.2 * nanosPerMilli ≤ first.time := by
      rintro rfl
      have passed : deadline ≤ first.time := by
        cases seeding : first.seeding with
        | true =>
          have within := contained first (List.mem_cons_self ..)
          unfold Attempt.Contained at within
          rw [if_pos seeding] at within
          exact within.1 deadline cools
        | false => exact asked first (List.mem_cons_self ..) seeding deadline cools
      exact held.trans passed
    -- if this attempt sets the cooldown again, it ends no earlier than before
    have later : ∃ deadline, (first.after venue).cooldowns.1 ticker = some deadline ∧
        since + (first.after venue).cooldowns.2 * nanosPerMilli ≤ deadline ∧
          (first.after venue).cooldowns.2 = first.desk.cooldowns.2 := by
      rcases @Attempt.after_cooldowns F X _ venue first with ⟨same, _⟩ | renewed
      · rw [same]
        exact ⟨deadline, cools, held, rfl⟩
      · rw [renewed]
        by_cases here : ticker = first.ticker
        · subst here
          refine ⟨_, Function.update_self .., ?_, rfl⟩
          have ended := steady first (List.mem_cons_self ..)
          exact Int.add_le_add_right ended _
        · exact ⟨deadline, (Function.update_of_ne here ..).trans cools, held, rfl⟩
    obtain ⟨renewed, cools, held, same⟩ := later
    intro attempt member
    rcases List.mem_cons.mp member with rfl | member
    · exact expired
    · rw [← same]
      exact ih rest (fun a among => asked a (List.mem_cons_of_mem _ among))
        (fun a among => contained a (List.mem_cons_of_mem _ among)) cools held
        (fun a among => steady a (List.mem_cons_of_mem _ among)) attempt member

theorem Threads.waits (threads : Threads venue cooldowns c attempts c')
    (asked : ∀ attempt ∈ attempts, attempt.Asked) (contained : ∀ attempt ∈ attempts, attempt.Contained venue)
    (steady : attempts.Pairwise fun earlier later => earlier.endTime venue ≤ later.endTime venue) :
    attempts.Pairwise fun earlier later => earlier.ticker = later.ticker → earlier.Rejected venue →
      later.writes venue ≠ [] → earlier.endTime venue + c.2 * nanosPerMilli ≤ later.time := by
  induction attempts generalizing c with
  | nil => exact List.Pairwise.nil
  | cons first attempts ih =>
    obtain ⟨rfl, rest⟩ := threads
    obtain ⟨onward, steady⟩ := List.pairwise_cons.mp steady
    have askedLater : ∀ attempt ∈ attempts, attempt.Asked := fun a among => asked a (List.mem_cons_of_mem _ among)
    have containedLater : ∀ attempt ∈ attempts, attempt.Contained venue :=
      fun a among => contained a (List.mem_cons_of_mem _ among)
    have cooldown : (first.after venue).cooldowns.2 = first.desk.cooldowns.2 := by
      rcases @Attempt.after_cooldowns F X _ venue first with ⟨same, _⟩ | renewed
      · rw [same]
      · rw [renewed]
        rfl
    refine List.pairwise_cons.mpr ⟨fun later member same rejected _ => ?_, ?_⟩
    · obtain ⟨after, rejected⟩ := rejected
      obtain ⟨_, offFeed, threw⟩ := (contained first (List.mem_cons_self ..)).stops rejected
      -- a contained rejection is thrown off the feed, and so the cooldown is there
      rcases @Attempt.after_cooldowns F X _ venue first with ⟨_, seeding⟩ | cooled
      · exact absurd (seeding threw) (by simp [offFeed])
      · rw [← cooldown]
        have cools : (first.after venue).cooldowns.1 first.ticker =
            some (first.endTime venue + (first.after venue).cooldowns.2 * nanosPerMilli) := by
          rw [cooled]
          exact Function.update_self ..
        exact rest.held askedLater containedLater cools le_rfl onward later member same.symm
    · rw [← cooldown]
      exact ih rest askedLater containedLater steady

/-- Where the clock does not go back and each attempt of a run is contained, the quoter backs off after every
rejection. -/
theorem rejection_backs_off (p : Process F X) (events : List (Event F))
    (steady : (p.attempts venue events).Pairwise fun earlier later => earlier.endTime venue ≤ later.endTime venue)
    (contained : ∀ attempt ∈ p.attempts venue events, attempt.Contained venue) :
    BacksOff venue (p.desk.session.errorCooldownMs * nanosPerMilli) (p.attempts venue events) := by
  constructor
  · intro attempt member rest rejected
    exact ((contained attempt member).stops rejected).1
  · exact (p.attempts_thread venue events).waits (p.attempts_asked venue events) contained steady

/-! ### An exchange that refuses every order -/

def Script.refusing : Host Script := { Script.host with post := fun _ _ x => (.ok { statusCode := 400 }, x) }

def refusingVenue : Venue Script := ⟨⟨"exchange"⟩, Script.refusing⟩

def quotingM : Process ℚ Script :=
  .start { tickers := ["M"] } { useClearingPricing := true } {} {} none none false false

/-- The time and the writes of an attempt, each write with whether it is a refused order. -/
def Attempt.outline (attempt : Attempt ℚ Script) : Bool × TimePoint × TimePoint × List Bool :=
  (attempt.seeding, attempt.time, attempt.endTime refusingVenue,
    (attempt.writes refusingVenue).map fun entry => entry.call.refused)

/-- The second delta makes the book two-sided, and the bid is refused. The third finds the market cooling down. -/
theorem rejection_backs_off_deltas :
    let events : List (Event ℚ) := [.delta "M" .yes 40 ⟨1000⟩, .delta "M" .no 40 ⟨1000⟩, .delta "M" .yes 41 ⟨1000⟩]
    let attempts := quotingM.attempts refusingVenue events
    attempts.map Attempt.outline = [(false, 0, 0, []), (false, 0, 0, [true])] ∧
      BacksOff refusingVenue 500000000 attempts := by
  intro events attempts
  have outlines : attempts.map Attempt.outline = [(false, 0, 0, []), (false, 0, 0, [true])] := by decide +kernel
  have each : ∀ attempt ∈ attempts, attempt.outline = (false, 0, 0, []) ∨ attempt.outline = (false, 0, 0, [true]) := by
    intro attempt member
    have among := List.mem_map_of_mem (f := Attempt.outline) member
    rw [outlines] at among
    simpa using among
  refine ⟨outlines, rejection_backs_off quotingM events ?_ fun attempt member => ?_⟩
  · refine List.pairwise_of_forall_mem_list fun earlier member later member' => ?_
    have ended : ∀ attempt ∈ attempts, attempt.endTime refusingVenue = 0 := by
      intro attempt member
      rcases each attempt member with outline | outline
      · exact congrArg (fun outline => outline.2.2.1) outline
      · exact congrArg (fun outline => outline.2.2.1) outline
    rw [ended earlier member, ended later member']
  -- a single write cannot be followed by another after it was refused
  · have brief : attempt.seeding = false ∧ (attempt.writes refusingVenue).length ≤ 1 := by
      rcases each attempt member with outline | outline
      · have writes := congrArg (fun outline => outline.2.2.2.length) outline
        simp only [Attempt.outline, List.length_map, List.length_nil] at writes
        exact ⟨congrArg Prod.fst outline, by omega⟩
      · have writes := congrArg (fun outline => outline.2.2.2.length) outline
        simp only [Attempt.outline, List.length_map, List.length_singleton] at writes
        exact ⟨congrArg Prod.fst outline, by omega⟩
    unfold Attempt.Contained
    rw [if_neg (by simp [brief.1])]
    rintro ⟨earlier, rejected, rest, writes, two, _⟩
    have long := brief.2
    rw [writes, List.length_append, List.length_append] at long
    omega

/-- The first quote of an adopted market is refused, and the next delta quotes it at once. -/
theorem seeding_does_not_back_off :
    let seed : Orderbook := { ticker := "M", yes := [⟨40, ⟨1000⟩⟩], no := [⟨40, ⟨1000⟩⟩] }
    let attempts := quotingM.attempts refusingVenue [.addMarket seed, .delta "M" .yes 41 ⟨1000⟩]
    attempts.map Attempt.outline = [(true, 0, 0, [true]), (false, 0, 0, [true])] ∧
      ¬ BacksOff refusingVenue 500000000 attempts := by
  intro seed attempts
  have outlines : attempts.map Attempt.outline = [(true, 0, 0, [true]), (false, 0, 0, [true])] := by decide +kernel
  have markets : attempts.map Attempt.ticker = ["M", "M"] := by decide +kernel
  refine ⟨outlines, fun backsOff => ?_⟩
  have waits := backsOff.waits
  obtain ⟨first, others, listed, seeded, rest⟩ := List.map_eq_cons_iff.mp outlines
  obtain ⟨second, none, rfl, quoted, _⟩ := List.map_eq_cons_iff.mp rest
  rw [listed] at waits markets
  obtain ⟨market, markets⟩ := List.cons_eq_cons.mp markets
  have same : first.ticker = second.ticker := market.trans (List.cons_eq_cons.mp markets).1.symm
  have written : ∀ {attempt : Attempt ℚ Script} {seeding : Bool}, attempt.outline = (seeding, 0, 0, [true]) →
      ∃ entry, attempt.writes refusingVenue = [entry] ∧ entry.call.refused = true := by
    intro attempt seeding outline
    exact List.map_eq_singleton_iff.mp (congrArg (fun outline => outline.2.2.2) outline)
  obtain ⟨bid, wrote, refused⟩ := written seeded
  obtain ⟨again, rewrote, _⟩ := written quoted
  -- the seeding's bid is refused, and the delta's bid starts at the same instant
  have rejected : first.Rejected refusingVenue := ⟨[], [], [bid], by rw [wrote]; rfl, .place refused⟩
  have later := (List.pairwise_cons.mp waits).1 second (List.mem_cons_self ..) same rejected (by simp [rewrote])
  have ended : first.endTime refusingVenue = 0 := congrArg (fun outline => outline.2.2.1) seeded
  have began : second.time = 0 := congrArg (fun outline => outline.2.1) quoted
  rw [ended, began] at later
  exact absurd later (by decide)

end Kalshi
