import SubxCore.Common.FloatValue
import SubxCore.Common.Frequencies
import SubxCore.Formats.Encoding
/-!
# Byte statistics

An analyzer counts bytes and pairs of bytes and gives the shares of some of them.
The counts go on from one input to the next and the total does not, so an input is
analysed as by a new analyzer only where nothing but empty inputs came before it
(`historyFree_iff`).

The entropy is a float that depends on the order in which a hash map is gone
through, and is a function of the counts and the total here.
-/

namespace SubxCore

open Frequencies FloatValue

/-- `ByteAnalyzer`. -/
structure ByteAnalyzer where
  byteFrequency : Frequencies UInt8
  bigramFrequency : Frequencies (UInt8 × UInt8)
  totalBytes : ℕ

/-- `AnalysisResult`. -/
structure AnalysisResult where
  asciiRatio : ℚ
  entropy : FloatValue
  controlCharRatio : ℚ
  byteDistribution : Frequencies UInt8
  likelyEncodings : List Charset

namespace ByteAnalyzer

/-! ## The functions -/

/-- `new`. -/
def new : ByteAnalyzer := ⟨empty, empty, 0⟩

/-- `collect_statistics`. -/
def collectStatistics (self : ByteAnalyzer) (data : Bytes) : ByteAnalyzer where
  totalBytes := data.length
  byteFrequency := addAll self.byteFrequency data
  bigramFrequency := addAll self.bigramFrequency (data.zip data.tail)

/-- All bytes. -/
def allBytes : List UInt8 := (List.range 256).map UInt8.ofNat

/-- Whether a byte is ASCII. -/
def isAscii (b : UInt8) : Bool := b < 0x80

/-- Whether a byte is a control character other than a tab or a line end. -/
def isControl (b : UInt8) : Bool := b < 0x20 && b != 0x09 && b != 0x0A && b != 0x0D

/-- The share of the bytes of a kind. -/
def ratioOf (kind : UInt8 → Bool) (self : ByteAnalyzer) : ℚ :=
  if 0 < self.totalBytes then (sumOf allBytes kind self.byteFrequency : ℚ) / self.totalBytes else 0

/-- `calculate_ascii_ratio`. -/
def calculateAsciiRatio (self : ByteAnalyzer) : ℚ := self.ratioOf isAscii

/-- `calculate_control_char_ratio`. -/
def calculateControlCharRatio (self : ByteAnalyzer) : ℚ := self.ratioOf isControl

/-- `suggest_encodings`. -/
def suggestEncodings (asciiRatio : ℚ) (entropy : FloatValue) (controlRatio : ℚ) : List Charset :=
  let suggestions := (if 9 / 10 < asciiRatio then [.utf8] else []) ++
    (if finite 6 < entropy ∧ asciiRatio < 4 / 5 then [.gbk, .big5, .shiftJis] else []) ++
    (if 1 / 100 < controlRatio then [.windows1252] else [])
  if suggestions = [] then [.utf8] else suggestions

variable (calculateEntropy : Frequencies UInt8 → ℕ → FloatValue)

/-- `calculate_metrics`. -/
def calculateMetrics (self : ByteAnalyzer) : AnalysisResult :=
  let asciiRatio := self.calculateAsciiRatio
  let entropy := calculateEntropy self.byteFrequency self.totalBytes
  let controlCharRatio := self.calculateControlCharRatio
  { asciiRatio, entropy, controlCharRatio
    byteDistribution := self.byteFrequency
    likelyEncodings := suggestEncodings asciiRatio entropy controlCharRatio }

/-- `analyze`, with the analyzer that it leaves. -/
def analyze (self : ByteAnalyzer) (data : Bytes) : AnalysisResult × ByteAnalyzer :=
  let collected := self.collectStatistics data
  (collected.calculateMetrics calculateEntropy, collected)

/-- The analyzer after some inputs. -/
def afterInputs (inputs : List Bytes) : ByteAnalyzer :=
  inputs.foldl (fun self data => (self.analyze calculateEntropy data).2) new

variable {calculateEntropy} {inputs before rest : List Bytes} {data d : Bytes} {kind : UInt8 → Bool}

/-! ## One input -/

theorem nodup_allBytes : allBytes.Nodup := by
  refine List.Nodup.map_on (fun a ha b hb h => ?_) List.nodup_range
  rw [List.mem_range] at ha hb
  have hnat := congrArg UInt8.toNat h
  rwa [UInt8.toNat_ofNat_of_lt' ha, UInt8.toNat_ofNat_of_lt' hb] at hnat

theorem mem_allBytes (b : UInt8) : b ∈ allBytes :=
  List.mem_map.2 ⟨b.toNat, List.mem_range.2 b.toNat_lt, UInt8.ofNat_toNat⟩

/-- A share of a new analyzer is the share of the bytes. -/
theorem ratioOf_collectStatistics_new (data : Bytes) : ratioOf kind (new.collectStatistics data) =
    if 0 < data.length then (data.countP kind : ℚ) / data.length else 0 := by
  have hsum : sumOf allBytes kind (addAll empty data) = data.countP kind :=
    sumOf_addAll_empty nodup_allBytes fun b _ => mem_allBytes b
  rw [ratioOf, collectStatistics, new]
  dsimp only
  rw [hsum]

/-- **A new analyzer gives a share.** -/
theorem ratioOf_new_mem_unit (kind : UInt8 → Bool) (data : Bytes) :
    0 ≤ ratioOf kind (new.collectStatistics data) ∧
      ratioOf kind (new.collectStatistics data) ≤ 1 := by
  rw [ratioOf_collectStatistics_new]
  split
  · next hpos =>
    have hlen : (0 : ℚ) < data.length := by exact_mod_cast hpos
    have hle : (data.countP kind : ℚ) ≤ data.length := by exact_mod_cast List.countP_le_length
    exact ⟨by positivity, (div_le_one hlen).2 hle⟩
  · exact ⟨le_rfl, zero_le_one⟩

/-! ## Many inputs -/

/-- Bytes are counted on. -/
theorem byteFrequency_afterInputs (inputs : List Bytes) :
    (afterInputs calculateEntropy inputs).byteFrequency = addAll empty inputs.flatten := by
  induction inputs using List.reverseRecOn with
  | nil => rfl
  | append_singleton inputs data ih =>
    rw [List.flatten_append, List.flatten_singleton, addAll_append, ← ih, afterInputs,
      List.foldl_append]
    rfl

/-- **An input is analysed as by a new analyzer**, as far as its bytes and their shares go,
and the shares are shares. -/
structure AnalysedAlone (calculateEntropy : Frequencies UInt8 → ℕ → FloatValue)
    (result : AnalysisResult) (data : Bytes) : Prop where
  byteDistribution :
    result.byteDistribution = (new.analyze calculateEntropy data).1.byteDistribution
  asciiRatio : result.asciiRatio = (new.analyze calculateEntropy data).1.asciiRatio
  controlCharRatio :
    result.controlCharRatio = (new.analyze calculateEntropy data).1.controlCharRatio
  asciiRatio_mem : 0 ≤ result.asciiRatio ∧ result.asciiRatio ≤ 1
  controlCharRatio_mem : 0 ≤ result.controlCharRatio ∧ result.controlCharRatio ≤ 1

/-- Every input of a sequence is analysed as if it were alone. -/
def HistoryFree (calculateEntropy : Frequencies UInt8 → ℕ → FloatValue) (inputs : List Bytes) :
    Prop :=
  ∀ before data rest, inputs = before ++ data :: rest → AnalysedAlone calculateEntropy
    ((afterInputs calculateEntropy before).analyze calculateEntropy data).1 data

/-- **What came before an input shows**, if it is not empty. -/
theorem analysedAlone_iff (before : List Bytes) (data : Bytes) :
    AnalysedAlone calculateEntropy
      ((afterInputs calculateEntropy before).analyze calculateEntropy data).1 data ↔
        before.flatten = [] := by
  have hfrequency : (afterInputs calculateEntropy before).byteFrequency =
      addAll empty before.flatten := byteFrequency_afterInputs before
  constructor
  · intro halone
    have hdistribution : addAll (afterInputs calculateEntropy before).byteFrequency data =
        addAll empty data := halone.byteDistribution
    rwa [hfrequency, ← addAll_append, addAll_append_eq_iff] at hdistribution
  · intro hempty
    rw [hempty] at hfrequency
    have hstatistics : (afterInputs calculateEntropy before).collectStatistics data =
        { new.collectStatistics data with
          bigramFrequency := addAll (afterInputs calculateEntropy before).bigramFrequency
            (data.zip data.tail) } := by
      rw [collectStatistics, hfrequency]
      rfl
    have hratio (kind : UInt8 → Bool) :
        ratioOf kind ((afterInputs calculateEntropy before).collectStatistics data) =
          ratioOf kind (new.collectStatistics data) := by
      rw [hstatistics]
      rfl
    refine ⟨congrArg (addAll · data) hfrequency, hratio isAscii, hratio isControl, ?_, ?_⟩
    · have hmem := ratioOf_new_mem_unit isAscii data
      rwa [← hratio] at hmem
    · have hmem := ratioOf_new_mem_unit isControl data
      rwa [← hratio] at hmem

/-- **Inputs are analysed as if they were alone exactly** where all but the last are
empty. -/
theorem historyFree_iff (calculateEntropy : Frequencies UInt8 → ℕ → FloatValue)
    (inputs : List Bytes) : HistoryFree calculateEntropy inputs ↔ ∀ d ∈ inputs.dropLast, d = [] := by
  simp only [HistoryFree, analysedAlone_iff]
  constructor
  · intro h d hd
    rcases List.eq_nil_or_concat' inputs with rfl | ⟨before, last, rfl⟩
    · cases hd
    · rw [List.dropLast_concat] at hd
      exact List.flatten_eq_nil_iff.1 (h before last [] rfl) d hd
  · rintro h before data rest rfl
    refine List.flatten_eq_nil_iff.2 fun d hd => h d ?_
    rw [List.dropLast_append_of_ne_nil (List.cons_ne_nil data rest)]
    exact List.mem_append_left _ hd

/-- The second of two bytes is analysed with the first. -/
theorem second_byte_not_alone : ¬ HistoryFree (fun _ _ => nan) [[0x41], [0x42]] ∧
    ((afterInputs (fun _ _ => nan) [[0x41]]).analyze (fun _ _ => nan) [0x42]).1.asciiRatio = 2 := by
  refine ⟨fun h => ?_, by decide +kernel⟩
  have hbyte := congrFun (h [[0x41]] [0x42] [] rfl).byteDistribution 0x41
  exact absurd hbyte (by decide +kernel)

end ByteAnalyzer

end SubxCore
