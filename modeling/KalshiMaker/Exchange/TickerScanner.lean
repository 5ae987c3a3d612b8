import KalshiMaker.Engine.Orderbook
import KalshiMaker.Engine.PricingModel
import KalshiMaker.Exchange.Listings

/-! The market scanner: which listed markets are worth quoting, best first. -/
namespace Kalshi

structure ScannerConfig (F : Type) [Floating F] where
  minPriceCents : Int := 15
  maxPriceCents : Int := 85
  minSpreadCents : Int := 3
  maxSpreadCents : Int := 10
  minVolume24h : F := ((1000 : Int) : F)
  minDaysToClose : F := ((1 : Int) : F)
  maxDaysToClose : F := ((90 : Int) : F)
  incentiveWeight : F := ratioOf 1 2
  maxStaleTradeMinutes : Int := 30
  minTradesPerHour : Int := 6
  minTradePriceRangeCents : Int := 2
  tapeRangeLookbackMinutes : Int := 180
  minMinorityFlowRatio : F := 0
  minReversionKappa : F := 0
  reversionWindowMinutes : Int := 180
  eventSeries : List String := []

structure MarketScore (F : Type) [Floating F] where
  ticker : Ticker
  title : String
  category : String
  midPriceCents : Int := 0
  spreadCents : Int := 0
  volume24h : F := 0
  daysToClose : F := 0
  incentiveRewardDollars : F := 0
  score : F := 0

structure Candle where
  closeCents : Option Int
  deriving DecidableEq, Repr

/-- What the exchange answers the scanner; `none` where the request fails. -/
structure Probes (F : Type) [Floating F] where
  /-- `get_markets`, of one series or of all. -/
  markets : Option String → List (Market F)
  incentivePrograms : List IncentiveProgram
  recentTrades : Ticker → (limit : Int) → Option (List PublicTrade)
  candlesticks : Ticker → (startTsSeconds endTsSeconds : Int) → Option (List Candle)
  orderbook : Ticker → Option Orderbook

variable {F : Type} [Floating F]

/-! ### Dates -/

def kTickerMonthTokens : List String :=
  ["JAN", "FEB", "MAR", "APR", "MAY", "JUN", "JUL", "AUG", "SEP", "OCT", "NOV", "DEC"]

def digitOf (c : Char) : Int := (c.toNat : Int) - ('0'.toNat : Int)

/-- The date token behind the first hyphen, as a number `yyyymmdd`. -/
def tickerEventDateKey (ticker : Ticker) : Option Int :=
  match ticker.toList.dropWhile (fun c => c != '-') with
  | _ :: yearTens :: yearOnes :: m₀ :: m₁ :: m₂ :: dayTens :: dayOnes :: _ =>
    if yearTens.isDigit && yearOnes.isDigit && dayTens.isDigit && dayOnes.isDigit then
      match kTickerMonthTokens.findIdx? (fun token => token == String.ofList [m₀, m₁, m₂]) with
      | none => none
      | some index =>
        let year := 2000 + digitOf yearTens * 10 + digitOf yearOnes
        let day := digitOf dayTens * 10 + digitOf dayOnes
        if day < 1 ∨ 31 < day then none else some (year * 10000 + ((index : Int) + 1) * 100 + day)
    else none
  | _ => none

/-- The Gregorian date of a day, counted from the first of January 1970. -/
def civilFromDays (days : Int) : Int × Int × Int :=
  let shifted := days + 719468
  let era := shifted.fdiv 146097
  let dayOfEra := shifted - era * 146097
  let yearOfEra := (dayOfEra - dayOfEra / 1460 + dayOfEra / 36524 - dayOfEra / 146096) / 365
  let dayOfYear := dayOfEra - (365 * yearOfEra + yearOfEra / 4 - yearOfEra / 100)
  let monthIndex := (5 * dayOfYear + 2) / 153
  let day := dayOfYear - (153 * monthIndex + 2) / 5 + 1
  let month := if monthIndex < 10 then monthIndex + 3 else monthIndex - 9
  (yearOfEra + era * 400 + (if month ≤ 2 then 1 else 0), month, day)

def kSecondsPerDay : Int := 86400

def utcDateKey (now : TimePoint) : Int :=
  let (year, month, day) := civilFromDays (now.fdiv (kSecondsPerDay * nanosPerSecond))
  year * 10000 + month * 100 + day

/-! ### Scores -/

structure SpreadCurve (F : Type) [Floating F] where
  midCents : F
  halfRangeCents : F

def spreadCurve (config : ScannerConfig F) : SpreadCurve F where
  midCents := ((config.minSpreadCents + config.maxSpreadCents : Int) : F) / ((2 : Int) : F)
  halfRangeCents := Floating.max (ratioOf 1 2)
    (((config.maxSpreadCents - config.minSpreadCents : Int) : F) / ((2 : Int) : F))

def computeScore (market : MarketScore F) (maxVolume : F) (curve : SpreadCurve F) : F :=
  let volTerm : F :=
    if ((1 : Int) : F) < maxVolume ∧ ((1 : Int) : F) < market.volume24h then
      Floating.log market.volume24h / Floating.log maxVolume
    else 0
  let offset := (market.spreadCents : F) - curve.midCents
  let spreadTerm := ((1 : Int) : F) - (if offset < 0 then -offset else offset) / curve.halfRangeCents
  ratioOf 7 10 * volTerm + ratioOf 3 10 * Floating.max 0 spreadTerm

def incentiveTerm (market : MarketScore F) (maxReward : F) : F :=
  if market.incentiveRewardDollars ≤ 0 ∨ maxReward ≤ ((1 : Int) : F) then 0
  else
    Floating.log (market.incentiveRewardDollars + ((1 : Int) : F)) / Floating.log (maxReward + ((1 : Int) : F))

/-- The last program of a market counts. -/
def rewardOf (programs : List IncentiveProgram) (ticker : Ticker) : Option F :=
  (programs.reverse.find? fun program => program.marketTicker == ticker).map fun program =>
    (program.periodRewardCenticents : F) / ((10000 : Int) : F)

/-- The candidates with their rewards, and the highest reward. -/
def joinIncentives (candidates : List (MarketScore F)) (programs : List IncentiveProgram) : List (MarketScore F) × F :=
  (candidates.map fun candidate =>
      match (rewardOf programs candidate.ticker : Option F) with
      | some reward => { candidate with incentiveRewardDollars := reward }
      | none => candidate,
    candidates.foldl
      (fun maxReward candidate =>
        match (rewardOf programs candidate.ticker : Option F) with
        | some reward => Floating.max maxReward reward
        | none => maxReward) 0)

/-! ### Admission -/

namespace TickerScanner

variable (config : ScannerConfig F) (probes : Probes F)

/-- The prints of a tape, newest first, down to a cutoff. -/
def printsSince (trades : List PublicTrade) (cutoff : TimePoint) : List PublicTrade :=
  trades.takeWhile fun trade => !decide (trade.timestamp < cutoff)

def tapeShowsPriceDiscovery (trades : List PublicTrade) (lookbackCutoff : TimePoint) : Bool :=
  let recent := printsSince trades lookbackCutoff
  let minPrice := recent.foldl (fun least trade => min least trade.yesPriceCents) (kMaxPriceCents + 1)
  let maxPrice := recent.foldl (fun most trade => max most trade.yesPriceCents) 0
  if recent.length < 2 then false
  else if maxPrice - minPrice < config.minTradePriceRangeCents then false
  else true

structure TakerFlow (F : Type) [Floating F] where
  yesVolume : F := 0
  noVolume : F := 0
  yesPrints : Int := 0
  noPrints : Int := 0

def TakerFlow.add (flow : TakerFlow F) (trade : PublicTrade) : TakerFlow F :=
  if trade.takerSide = .yes then
    { flow with yesVolume := flow.yesVolume + trade.quantity.contracts, yesPrints := flow.yesPrints + 1 }
  else { flow with noVolume := flow.noVolume + trade.quantity.contracts, noPrints := flow.noPrints + 1 }

def tapeIsTwoSided (trades : List PublicTrade) (hourCutoff : TimePoint) : Bool :=
  let flow : TakerFlow F := (printsSince trades hourCutoff).foldl TakerFlow.add {}
  let hasVolume := decide (0 < flow.yesVolume + flow.noVolume)
  let minority : F :=
    if hasVolume then Floating.min flow.yesVolume flow.noVolume else ((min flow.yesPrints flow.noPrints : Int) : F)
  let total : F := if hasVolume then flow.yesVolume + flow.noVolume else ((flow.yesPrints + flow.noPrints : Int) : F)
  if total ≤ 0 then false
  else if minority / total < config.minMinorityFlowRatio then false
  else true

def kDefaultTapeProbeTrades : Int := 8

def minutes (n : Int) : Int := n * 60 * nanosPerSecond

/-- How many prints the tape is asked for. -/
def probeLimit : Int :=
  let rangeProbe := if 0 < config.minTradePriceRangeCents then kDefaultTapeProbeTrades else 1
  let flowProbe := if 0 < config.minMinorityFlowRatio then kDefaultTapeProbeTrades else 1
  max (max (max config.minTradesPerHour rangeProbe) flowProbe) 1

def isStale (newest : PublicTrade) (now : TimePoint) : Bool :=
  decide (0 < config.maxStaleTradeMinutes) && decide (newest.timestamp < now - minutes config.maxStaleTradeMinutes)

def tooFewPerHour (trades : List PublicTrade) (now : TimePoint) : Bool :=
  decide (0 < config.minTradesPerHour) &&
    (match trades[config.minTradesPerHour.toNat - 1]? with
    | some needed => decide (needed.timestamp < now - minutes 60)
    | none => true)

/-- The tape-range check, where it is enabled. -/
def passesTapeRange (trades : List PublicTrade) (now : TimePoint) : Bool :=
  !decide (0 < config.minTradePriceRangeCents) ||
    tapeShowsPriceDiscovery config trades (now - minutes config.tapeRangeLookbackMinutes)

def passesFlowAdmission (ticker : Ticker) (now : TimePoint) : Bool :=
  match probes.recentTrades ticker (probeLimit config) with
  | none => true
  | some [] => false
  | some (newest :: older) =>
    if isStale config newest now then false
    else if tooFewPerHour config (newest :: older) now then false
    else if !passesTapeRange config (newest :: older) now then false
    else if 0 < config.minMinorityFlowRatio ∧ !tapeIsTwoSided config (newest :: older) (now - minutes 60) then false
    else true

def pathVariation : List Int → F
  | close :: next :: closes =>
    (closes.foldl (fun (walk : F × Int) following => (walk.1 + ((|following - walk.2| : Int) : F), following))
      ((0 : F) + ((|next - close| : Int) : F), next)).1
  | _ => 0

def passesReversionAdmission (ticker : Ticker) (now : TimePoint) : Bool :=
  let endTs := now.tdiv nanosPerSecond
  let startTs := endTs - config.reversionWindowMinutes * 60
  match probes.candlesticks ticker startTs endTs with
  | none => true
  | some candles =>
    let closes := candles.filterMap Candle.closeCents
    match closes.head?, closes.getLast? with
    | some first, some last =>
      if closes.length < 2 then false
      else
        let netMove : F := ((last - first : Int) : F)
        let trendCost := netMove * netMove
        if pathVariation closes < config.minReversionKappa * trendCost then false else true
    | _, _ => false

def passesBookAdmission (ticker : Ticker) : Bool :=
  match probes.orderbook ticker with
  | none => true
  | some snapshot =>
    let book := LocalOrderbook.applySnapshot snapshot
    match book.bestBid, book.bestAsk with
    | some bid, some ask => if ask.priceCents - bid.priceCents < config.minSpreadCents then false else true
    | _, _ => true

def checkTrades : Bool :=
  decide (0 < config.maxStaleTradeMinutes) || decide (0 < config.minTradesPerHour) ||
    decide (0 < config.minTradePriceRangeCents) || decide (0 < config.minMinorityFlowRatio)

def checkBook : Bool := decide (0 < config.minSpreadCents)

def checkReversion : Bool := decide (0 < config.minReversionKappa)

/-- The loop of `admit_finalists`, with so many admitted before. -/
def admitting (topN : Int) (now : TimePoint) : List (MarketScore F) → Nat → List (MarketScore F)
  | [], _ => []
  | candidate :: candidates, admitted =>
    if topN ≤ admitted then []
    else if checkTrades config && !passesFlowAdmission config probes candidate.ticker now then
      admitting topN now candidates admitted
    else if checkBook config && !passesBookAdmission config probes candidate.ticker then
      admitting topN now candidates admitted
    else if checkReversion config && !passesReversionAdmission config probes candidate.ticker now then
      admitting topN now candidates admitted
    else candidate :: admitting topN now candidates (admitted + 1)

def admitFinalists (candidates : List (MarketScore F)) (topN : Int) (now : TimePoint) : List (MarketScore F) :=
  if !checkTrades config && !checkBook config && !checkReversion config then candidates
  else admitting config probes topN now candidates 0

/-! ### The scan -/

def fetchMarkets (series : List String) : List (Market F) :=
  if series.isEmpty then probes.markets none else series.flatMap fun event => probes.markets (some event)

def daysToClose (market : Market F) (now : TimePoint) : F :=
  ((market.closeTime - now : Int) : F) / ((nanosPerSecond : Int) : F) / ((kSecondsPerDay : Int) : F)

/-- The filters on what is listed. -/
def candidateOf (now : TimePoint) (market : Market F) : Option (MarketScore F) :=
  let mid := (market.yesBidCents + market.yesAskCents).tdiv 2
  let spread := market.yesAskCents - market.yesBidCents
  let days := daysToClose market now
  if market.status ≠ "active" then none
  else if market.yesBidCents = 0 ∨ market.yesAskCents = 0 then none
  else if (tickerEventDateKey market.ticker).any (fun key => decide (key < utcDateKey now)) then none
  else if mid < config.minPriceCents ∨ config.maxPriceCents < mid then none
  else if spread < config.minSpreadCents ∨ config.maxSpreadCents < spread then none
  else if market.volume24h < config.minVolume24h then none
  else if days < config.minDaysToClose ∨ config.maxDaysToClose < days then none
  else some
    { ticker := market.ticker
      title := market.title
      category := market.category
      midPriceCents := mid
      spreadCents := spread
      volume24h := market.volume24h
      daysToClose := days }

/-- The candidates with their scores, before they are ranked. -/
def scored (now : TimePoint) : List (MarketScore F) :=
  let candidates := (fetchMarkets probes config.eventSeries).filterMap (candidateOf config now)
  let maxVolume := candidates.foldl
    (fun maxVolume candidate => if maxVolume < candidate.volume24h then candidate.volume24h else maxVolume)
    ((1 : Int) : F)
  let joined := joinIncentives candidates probes.incentivePrograms
  let curve := spreadCurve config
  joined.1.map fun candidate =>
    { candidate with
      score := computeScore candidate maxVolume curve + config.incentiveWeight * incentiveTerm candidate joined.2 }

def byScoreDescending (left right : MarketScore F) : Prop := ¬ left.score < right.score

instance : DecidableRel (byScoreDescending (F := F)) :=
  fun left right => inferInstanceAs (Decidable (¬ left.score < right.score))

def scan (topN : Int) (now : TimePoint) : List (MarketScore F) :=
  let ranked := (scored config probes now).insertionSort byScoreDescending
  let admitted := admitFinalists config probes ranked topN now
  if topN < admitted.length then admitted.take topN.toNat else admitted

end TickerScanner

end Kalshi
