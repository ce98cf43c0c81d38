import QuantAgent.Jobs.Records
import QuantAgent.Lib.Codec
import QuantAgent.Lib.PyText

namespace QuantAgent
set_option autoImplicit true

def Stage.value : Stage → String
  | .interpreting => "interpreting"
  | .codeGeneration => "code_generation"
  | .backtest => "backtest"
  | .debate => "debate"
  | .finalizing => "finalizing"

def StageStatus.value : StageStatus → String
  | .queued => "queued"
  | .running => "running"
  | .succeeded => "succeeded"
  | .failed => "failed"

def EnvelopeStatus.value : EnvelopeStatus → String
  | .ready => "ready"
  | .needClarification => "need_clarification"
  | .rejected => "rejected"
  | .failed => "failed"

def AnalysisJobStatus.value : AnalysisJobStatus → String
  | .queued => "queued"
  | .running => "running"
  | .completed => "completed"
  | .failed => "failed"

def Stage.codec : Codec Stage := .enum Stage.value Stage.order (by intro a; cases a <;> rfl)

def StageStatus.codec : Codec StageStatus :=
  .enum StageStatus.value [.queued, .running, .succeeded, .failed] (by intro a; cases a <;> rfl)

def EnvelopeStatus.codec : Codec EnvelopeStatus :=
  .enum EnvelopeStatus.value [.ready, .needClarification, .rejected, .failed]
    (by intro a; cases a <;> rfl)

def AnalysisJobStatus.codec : Codec AnalysisJobStatus :=
  .enum AnalysisJobStatus.value [.queued, .running, .completed, .failed]
    (by intro a; cases a <;> rfl)

/-- `value.strip().lower().replace(" ", "_")` -/
def normalizeStrategyId (value : String) : String :=
  String.ofList ((pyLower (pyStrip value)).toList.map fun c => if c = ' ' then '_' else c)

namespace Persisted

/-- `Field(min_length=1)` -/
abbrev NonEmptyText := {s : String // decide (s ≠ "") = true}

/-- `Field(pattern=r"^[0-9a-f]{64}$")` -/
abbrev HexDigest := {s : String // hexDigest s = true}

/-- A `Literal` of texts. -/
abbrev OneOf (values : List String) := {s : String // decide (s ∈ values) = true}

abbrev nonEmptyText : Codec NonEmptyText := Codec.text.refine _

abbrev hexText : Codec HexDigest := Codec.text.refine _

abbrev oneOf (values : List String) : Codec (OneOf values) := Codec.text.refine _

/-- `Field(ge=low, le=high)` -/
abbrev Bounded (low high : ℤ) := {n : ℤ // (decide (low ≤ n) && decide (n ≤ high)) = true}

abbrev bounded (low high : ℤ) : Codec (Bounded low high) := Codec.int.refine _

/-- The models of a job document whose validation only checks, and the numbers of the others. -/
inductive Leaf
  | executionSpec
  | semanticSlots
  | dataRequirement
  | sourceUsage
  | freshnessEvidence
  | evidenceRef
  | ruleProvenance
  | condition
  | strategyCandidateCard
  | recommendationGate
  | tickerAction
  | clarificationOption
  | riskAdjustment
  | baseReportV2
  | performanceMethodManifest
  | executionEvents
  | unitFloat
  | scalar

/-- These models, and the datetimes: `time` is their form in `model_dump(mode="json")`. -/
structure Schema where
  Value : Leaf → Type
  codec : ∀ leaf, Codec (Value leaf)
  time : Codec Timestamp
  isoformat : Timestamp → Doc
  specVersion : Value .executionSpec → String
  /-- `canonical_execution_spec_digest` -/
  specDigest : Value .executionSpec → String
  codec_stable : ∀ leaf v, (codec leaf).Stable v
  time_stable : ∀ t, time.Stable t
  isoformat_ne_null : ∀ t, isoformat t ≠ .null
  validate_isoformat : ∀ t, time.validate (isoformat t) = some t

attribute [simp] Schema.codec_stable Schema.time_stable

/-- A datetime written by `isoformat()`. -/
def Schema.isoTime (S : Schema) : Codec Timestamp where
  dump := S.isoformat
  validate := S.time.validate
  Stable _ := True
  dump_ne_null := S.isoformat_ne_null
  validate_dump t := iff_of_true (S.validate_isoformat t) trivial

@[simp] theorem Schema.isoTime_stable (S : Schema) (t : Timestamp) : S.isoTime.Stable t := trivial

variable (S : Schema)

def stageProgressFields : Fields StageProgress :=
  ((Fields.required "stage" Stage.codec).and <|
    (Fields.required "status" StageStatus.codec).and <|
    (Fields.required "updated_at" S.time).and <|
    Fields.nullable "message" .text).imap
      ⟨fun (stage, status, updatedAt, message) => ⟨stage, status, updatedAt, message⟩,
        fun p => (p.stage, p.status, p.updatedAt, p.message), fun _ => rfl, fun _ => rfl⟩

end Persisted
end QuantAgent
