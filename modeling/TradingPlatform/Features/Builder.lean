import TradingPlatform.Features.ContextDeriver
import TradingPlatform.Features.Sharing

/-!
# The feature builder

`DefaultFeatureBuilder` computes the indicators of a frame, the flags that compare them and the
market context. An indicator that asks for more bars is left out, and any other error ends the
build. The indicators and the flags depend on the frame only.
-/

namespace TradingPlatform

/-! ## Flags -/

/-- The operators of a flag. -/
inductive Comparator | ge | le | eq | gt | lt
  deriving DecidableEq, Repr

def Comparator.holds (left right : ℚ) : Comparator → Bool
  | ge => right ≤ left
  | le => left ≤ right
  | eq => left = right
  | gt => right < left
  | lt => left < right

/-- A white space character. -/
def isSpace (c : Char) : Bool :=
  let n := c.toNat
  (0x09 ≤ n && n ≤ 0x0D) || (0x1C ≤ n && n ≤ 0x20) || n == 0x85 || n == 0xA0 || n == 0x1680 ||
    (0x2000 ≤ n && n ≤ 0x200A) || n == 0x2028 || n == 0x2029 || n == 0x202F || n == 0x205F ||
    n == 0x3000

/-- `[a-zA-Z0-9_]` -/
def isWord (c : Char) : Bool := c.isAlphanum || c == '_'

/-- `[a-zA-Z_][a-zA-Z0-9_]*` -/
def isIdentifier : List Char → Bool
  | [] => false
  | c :: rest => (c.isAlpha || c == '_') && rest.all isWord

/-- `str.strip` -/
def strip (text : List Char) : List Char :=
  ((text.dropWhile isSpace).reverse.dropWhile isSpace).reverse

/-- The operator that a text starts with, the longer ones first. -/
def readComparator : List Char → Option (Comparator × List Char)
  | '>' :: '=' :: rest => some (.ge, rest)
  | '<' :: '=' :: rest => some (.le, rest)
  | '=' :: '=' :: rest => some (.eq, rest)
  | '>' :: rest => some (.gt, rest)
  | '<' :: rest => some (.lt, rest)
  | _ => none

/-- The groups of `_FLAG_PATTERN`. -/
structure FlagMatch where
  left : String
  comparator : Comparator
  right : String
  deriving DecidableEq, Repr

namespace FlagDef

variable (flag : FlagDef)

/-- The match of `_FLAG_PATTERN` on the stripped expression. -/
def matched : Option FlagMatch := do
  let text := strip flag.expr.toList
  let left := text.takeWhile isWord
  let (comparator, rest) ← readComparator ((text.dropWhile isWord).dropWhile isSpace)
  let right := rest.dropWhile isSpace
  if isIdentifier left && isIdentifier right then
    some { left := String.ofList left, comparator, right := String.ofList right }
  else none

/-- `evaluate_flag` -/
def evaluate (indicators : List (String × ℚ)) : Except PyError Bool :=
  match flag.matched with
  | none => .error (.valueError ("Unsupported flag expression: " ++ flag.expr))
  | some m =>
    match indicators.lookup m.left, indicators.lookup m.right with
    | some left, some right => .ok (m.comparator.holds left right)
    | _, _ => .error (.keyError ("Flag references unknown indicator in: " ++ flag.expr))

end FlagDef

/-- `evaluate_flags` -/
def FeaturesConfig.evaluateFlags (config : FeaturesConfig) (indicators : List (String × ℚ)) :
    Except PyError (List (String × Bool)) :=
  config.flags.foldlM (fun flags flag =>
    (flag.evaluate indicators).map fun value => Dict.setEntries flag.name value flags) []

/-! ## The builder -/

structure DefaultFeatureBuilder where
  config : FeaturesConfig
  configHash : String

/-- `_normalize_ohlcv` -/
def normalizeOhlcv (df : Frame) : Except PyError Frame :=
  if df = [] then .error (.dataProviderError "OHLCV DataFrame is empty")
  else .ok (df.insertionSort fun a b => a.timestamp ≤ b.timestamp)

/-- The loop of `build` over the indicators: `indicators` is the dictionary so far. -/
def keepIndicators (indicators : List (String × ℚ)) :
    List (IndicatorDef × Computed ℚ) → Except PyError (List (String × ℚ))
  | [] => .ok indicators
  | (definition, .ok value) :: rest =>
    keepIndicators (Dict.setEntries definition.name value indicators) rest
  | (_, .error (.insufficientData ..)) :: rest => keepIndicators indicators rest
  | (_, .error (.raised e)) :: _ => .error e

/-- The indicators of `build`. -/
def FeaturesConfig.computeIndicators (config : FeaturesConfig) (lib : IndicatorLibrary)
    (bars : List Bar) : Except PyError (List (String × ℚ)) :=
  keepIndicators [] (config.indicators.zip (sharedIndicators lib bars config.indicators))

/-- `build`, under the identifier that it draws. -/
def DefaultFeatureBuilder.build (builder : DefaultFeatureBuilder) (lib : IndicatorLibrary)
    (featureSetId : ℕ) (df : Frame) (symbol timeframe : String) (processingTime : ℤ) :
    Except PyError (FeatureSet × MarketContext) := do
  let normalized ← normalizeOhlcv df
  match normalized.getLast? with
  | none => throw .indexError
  | some lastRow =>
    let indicators ← builder.config.computeIndicators lib (normalized.map (·.bar))
    let flags ← builder.config.evaluateFlags indicators
    let close := lastRow.bar.close
    let context ← builder.config.context.derive symbol timeframe close indicators
      lastRow.timestamp
    return ({
      featureSetId, symbol, timeframe, processingTime, close, indicators, flags
      eventTime := lastRow.timestamp
      featureVersion := builder.config.version
      configHash := builder.configHash }, context)

/-! ## What a build depends on -/

section

variable {builder : DefaultFeatureBuilder} {lib : IndicatorLibrary} {featureSetId : ℕ} {df : Frame}
  {symbol timeframe : String} {processingTime : ℤ} {featureSet : FeatureSet}
  {context : MarketContext}

/-- A builder names its configuration in what it builds. -/
theorem configHash_of_build (h : builder.build lib featureSetId df symbol timeframe
    processingTime = .ok (featureSet, context)) : featureSet.configHash = builder.configHash := by
  obtain ⟨normalized, _, h⟩ := Except.bind_eq_ok.mp h
  cases hlast : normalized.getLast? with
  | none =>
    rw [hlast] at h
    cases h
  | some lastRow =>
    rw [hlast] at h
    obtain ⟨indicators, _, h⟩ := Except.bind_eq_ok.mp h
    obtain ⟨flags, _, h⟩ := Except.bind_eq_ok.mp h
    obtain ⟨_, _, h⟩ := Except.bind_eq_ok.mp h
    cases h
    rfl

/-- A build of the same frame, under another identifier and at another time, has the same
indicators and flags. -/
theorem build_again (h : builder.build lib featureSetId df symbol timeframe processingTime =
    .ok (featureSet, context)) (featureSetId' : ℕ) (processingTime' : ℤ) :
    builder.build lib featureSetId' df symbol timeframe processingTime' = .ok ({ featureSet with
      featureSetId := featureSetId', processingTime := processingTime' }, context) := by
  unfold DefaultFeatureBuilder.build
  obtain ⟨normalized, hnormalized, h⟩ := Except.bind_eq_ok.mp h
  rw [hnormalized]
  dsimp only [bind, Except.bind]
  cases hlast : normalized.getLast? with
  | none =>
    rw [hlast] at h
    cases h
  | some lastRow =>
    rw [hlast] at h
    obtain ⟨indicators, hindicators, h⟩ := Except.bind_eq_ok.mp h
    obtain ⟨flags, hflags, h⟩ := Except.bind_eq_ok.mp h
    obtain ⟨_, hcontext, h⟩ := Except.bind_eq_ok.mp h
    cases h
    dsimp only
    rw [hindicators]
    dsimp only
    rw [hflags]
    dsimp only
    rw [hcontext]
    rfl

end

end TradingPlatform
