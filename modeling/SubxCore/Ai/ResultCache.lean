import SubxCore.Formats.Types
import SubxCore.Matcher.Planning
/-!
# The cache of analysis results

Results are kept by a key that is hashed from the video and the subtitle files of
a request, for some time. What a key finds is what was set last with it
(`cache_after`), so where keys are not confused with each other a result is that
of the same files; the samples of the content are not in the key, and a request
that differs in them alone is answered with a result for the other
(`faithful_iff`). A clock that goes back makes no entry younger.
-/

namespace SubxCore.Ai

open Function

/-! ## Keys -/

/-- What a value feeds to a hasher. -/
inductive HashWrite
  | lengthPrefix (len : ℕ)
  | str (s : Text)
  deriving DecidableEq, Repr

/-- `DefaultHasher`: what `finish` returns after some writes. -/
abbrev DefaultHasher := List HashWrite → UInt64

/-- What strings feed to a hasher. -/
def hashStrings (strings : List Text) : List HashWrite :=
  .lengthPrefix strings.length :: strings.map .str

/-- What a key is hashed from. -/
def hashInput (request : AnalysisRequest) : List HashWrite :=
  hashStrings request.videoFiles ++ hashStrings request.subtitleFiles

/-- `generate_key`. -/
def generateKey (hasher : DefaultHasher) (request : AnalysisRequest) : Text :=
  Nat.toDigits 16 (hasher (hashInput request)).toNat

/-! ## The cache -/

/-- `CacheEntry`. Clocks are read in nanoseconds. -/
structure CacheEntry where
  data : MatchResult
  createdAt : ℤ

/-- `AICache`. -/
structure AICache where
  cache : Text → Option CacheEntry
  ttl : Duration
  ttl_le_max : ttl.nanos ≤ Duration.max.nanos

namespace AICache

/-- `new`. -/
def new (ttl : Duration) (h : ttl.nanos ≤ Duration.max.nanos) : AICache := ⟨fun _ => none, ttl, h⟩

/-- `SystemTime::elapsed`, which fails when the clock has gone back. -/
def elapsed (createdAt now : ℤ) : Option Duration :=
  if createdAt ≤ now then some ⟨(now - createdAt).toNat⟩ else none

/-- `get`. -/
def get (self : AICache) (key : Text) (now : ℤ) : Option MatchResult :=
  match self.cache key with
  | some entry =>
    if ((elapsed entry.createdAt now).getD .max).nanos < self.ttl.nanos then some entry.data
    else none
  | none => none

/-- `set`. -/
def set (self : AICache) (key : Text) (data : MatchResult) (now : ℤ) : AICache :=
  { self with cache := update self.cache key (some ⟨data, now⟩) }

end AICache

/-! ## Calls -/

/-- What is done with the cache, and what the clock shows then. -/
inductive CacheCall
  | set (request : AnalysisRequest) (data : MatchResult) (now : ℤ)
  | get (request : AnalysisRequest) (now : ℤ)
  deriving DecidableEq, Repr

/-- The request whose key is used. -/
def CacheCall.request : CacheCall → AnalysisRequest
  | .set request _ _ | .get request _ => request

/-- The cache after a call. -/
def perform (hasher : DefaultHasher) (cache : AICache) : CacheCall → AICache
  | .set request data now => cache.set (generateKey hasher request) data now
  | .get _ _ => cache

/-- The cache after some calls. -/
def after (hasher : DefaultHasher) (cache : AICache) (calls : List CacheCall) : AICache :=
  calls.foldl (perform hasher) cache

/-- What a call sets for a request of some kind, and when. -/
def CacheCall.setFor (kind : AnalysisRequest → Bool) :
    CacheCall → Option (AnalysisRequest × MatchResult × ℤ)
  | .set request data now => if kind request then some (request, data, now) else none
  | .get _ _ => none

/-- What was set last for a request of some kind. -/
def lastSet (kind : AnalysisRequest → Bool) (calls : List CacheCall) :
    Option (AnalysisRequest × MatchResult × ℤ) := calls.reverse.findSome? (CacheCall.setFor kind)

/-- Whether something set at some time is still kept. -/
def Fresh (ttl : Duration) (setAt now : ℤ) : Prop := setAt ≤ now ∧ now - setAt < ttl.nanos

/-- The two requests are for the same files. -/
def SameFiles (r s : AnalysisRequest) : Prop :=
  r.videoFiles = s.videoFiles ∧ r.subtitleFiles = s.subtitleFiles

instance : DecidableRel SameFiles := fun _ _ => inferInstanceAs (Decidable (_ ∧ _))

variable {hasher : DefaultHasher} {cache : AICache} {calls : List CacheCall} {call : CacheCall}
variable {r s request : AnalysisRequest} {data : MatchResult} {setAt now : ℤ} {ttl : Duration}
variable {kind kind' : AnalysisRequest → Bool} {key : Text}

/-! ## Keys of the same files -/

/-- What strings feed to a hasher tells where they end. -/
theorem hashStrings_append_inj {strings strings' : List Text} {rest rest' : List HashWrite}
    (h : hashStrings strings ++ rest = hashStrings strings' ++ rest') :
    strings = strings' ∧ rest = rest' := by
  have hstr : Injective HashWrite.str := fun _ _ heq => HashWrite.str.inj heq
  obtain ⟨hlen, h⟩ := List.cons.inj h
  have hlen : (strings.map HashWrite.str).length = (strings'.map HashWrite.str).length := by
    rw [List.length_map, List.length_map]
    exact HashWrite.lengthPrefix.inj hlen
  obtain ⟨hstrings, hrest⟩ := List.append_inj h hlen
  exact ⟨hstr.list_map hstrings, hrest⟩

/-- **A key is hashed from the files** and nothing else. -/
theorem hashInput_eq_iff : hashInput r = hashInput s ↔ SameFiles r s := by
  constructor
  · intro h
    obtain ⟨hvideos, hsubtitles⟩ := hashStrings_append_inj h
    rw [← List.append_nil (hashStrings r.subtitleFiles),
      ← List.append_nil (hashStrings s.subtitleFiles)] at hsubtitles
    exact ⟨hvideos, (hashStrings_append_inj hsubtitles).1⟩
  · rintro ⟨hvideos, hsubtitles⟩
    rw [hashInput, hashInput, hvideos, hsubtitles]

/-- Requests for the same files are told apart by the samples. -/
theorem SameFiles.eq_iff (h : SameFiles r s) : r = s ↔ r.contentSamples = s.contentSamples := by
  refine ⟨congrArg _, fun hsamples => ?_⟩
  cases r
  cases s
  obtain ⟨rfl, rfl⟩ := h
  exact congrArg _ hsamples

/-! ## What is set last -/

theorem lastSet_concat :
    lastSet kind (calls ++ [call]) = (call.setFor kind).or (lastSet kind calls) := by
  rw [lastSet, List.reverse_append, List.reverse_singleton, List.singleton_append,
    List.findSome?_cons]
  cases call.setFor kind with
  | some set => rfl
  | none => rfl

/-- Only the requests that come up have to be told apart. -/
theorem lastSet_congr (h : ∀ call ∈ calls, kind call.request = kind' call.request) :
    lastSet kind calls = lastSet kind' calls := by
  have hset : ∀ call ∈ calls, call.setFor kind = call.setFor kind' := fun call hcall => by
    have heq := h call hcall
    cases call with
    | set request data now => exact congrArg (if · then some (request, data, now) else none) heq
    | get request now => rfl
  induction calls using List.reverseRecOn with
  | nil => rfl
  | append_singleton calls call ih =>
    rw [List.forall_mem_append] at h hset
    rw [lastSet_concat, lastSet_concat, ih h.1 hset.1, hset.2 call (List.mem_singleton_self call)]

/-- The request that is found is of its kind. -/
theorem kind_of_lastSet (h : lastSet kind calls = some (r, data, setAt)) : kind r = true := by
  obtain ⟨call, -, hcall⟩ := List.exists_of_findSome?_eq_some h
  cases call with
  | set request data now =>
    rw [CacheCall.setFor] at hcall
    split at hcall
    · next hkind =>
      cases hcall
      exact hkind
    · cases hcall
  | get request now => cases hcall

/-- **A key finds what was set last with it.** -/
theorem cache_after (calls : List CacheCall) (hempty : cache.cache key = none) :
    (after hasher cache calls).cache key =
      (lastSet (fun r => generateKey hasher r = key) calls).map fun (_, data, setAt) =>
        ⟨data, setAt⟩ := by
  induction calls using List.reverseRecOn with
  | nil => exact hempty
  | append_singleton calls call ih =>
    rw [lastSet_concat, after, List.foldl_append]
    rw [after] at ih
    cases call with
    | set request data now =>
      dsimp only [List.foldl_cons, List.foldl_nil, perform, AICache.set]
      rw [CacheCall.setFor]
      by_cases hkey : generateKey hasher request = key
      · rw [if_pos (decide_eq_true hkey), hkey, update_self]
        rfl
      · rw [update_of_ne (Ne.symm hkey), ih, if_neg (by simpa using hkey), Option.none_or]
    | get request now => exact ih

/-- The time that results are kept does not change. -/
theorem ttl_after (calls : List CacheCall) : (after hasher cache calls).ttl = cache.ttl := by
  induction calls using List.reverseRecOn with
  | nil => rfl
  | append_singleton calls call ih =>
    rw [after, List.foldl_append]
    cases call with
    | set request data now => exact ih
    | get request now => exact ih

/-! ## What is found -/

/-- A clock that has gone back makes an entry too old. -/
theorem elapsed_lt_iff (h : ttl.nanos ≤ Duration.max.nanos) :
    ((AICache.elapsed setAt now).getD .max).nanos < ttl.nanos ↔ Fresh ttl setAt now := by
  unfold AICache.elapsed Fresh
  split
  · next hle =>
    rw [Option.getD_some, and_iff_right hle]
    dsimp only
    omega
  · next hlt =>
    rw [Option.getD_none]
    exact iff_of_false (Nat.not_lt.2 h) fun hfresh => hlt hfresh.1

/-- **What a key finds after some calls**: what was set last with it, if that is fresh. -/
theorem get_after_eq_some_iff {h : ttl.nanos ≤ Duration.max.nanos} :
    (after hasher (.new ttl h) calls).get key now = some data ↔
      ∃ r setAt, lastSet (fun r => generateKey hasher r = key) calls = some (r, data, setAt) ∧
        Fresh ttl setAt now := by
  have hcache : (AICache.new ttl h).cache key = none := rfl
  have httl : (after hasher (.new ttl h) calls).ttl = ttl := ttl_after calls
  rw [AICache.get, cache_after calls hcache, httl]
  rcases lastSet (fun r => generateKey hasher r = key) calls with - | ⟨r, data', setAt⟩
  · simp
  · rw [Option.map_some]
    dsimp only
    split
    · next hfresh =>
      rw [elapsed_lt_iff h] at hfresh
      constructor
      · intro heq
        cases heq
        exact ⟨r, setAt, rfl, hfresh⟩
      · rintro ⟨r', setAt', heq, -⟩
        cases heq
        rfl
    · next hstale =>
      rw [elapsed_lt_iff h] at hstale
      refine iff_of_false (fun heq => by cases heq) ?_
      rintro ⟨r', setAt', heq, hfresh⟩
      cases heq
      exact hstale hfresh

/-! ## The result -/

/-- **A result is that of the request**: what is found was set last with its key, for
the request that asks, less than the time ago that results are kept. -/
def Faithful (hasher : DefaultHasher) (ttl : Duration) (h : ttl.nanos ≤ Duration.max.nanos)
    (calls : List CacheCall) : Prop :=
  ∀ before request now rest, calls = before ++ .get request now :: rest → ∀ data,
    (after hasher (.new ttl h) before).get (generateKey hasher request) now = some data →
      ∃ setAt, lastSet (fun r => generateKey hasher r = generateKey hasher request) before =
        some (request, data, setAt) ∧ Fresh ttl setAt now

/-- Where a result is asked for, the last one that was set for the same files, if it is
fresh, was set for the same samples. -/
def SamplesAgree (ttl : Duration) (calls : List CacheCall) : Prop :=
  ∀ before request now rest, calls = before ++ .get request now :: rest →
    ∀ r data setAt, lastSet (fun r => SameFiles r request) before = some (r, data, setAt) →
      Fresh ttl setAt now → r.contentSamples = request.contentSamples

/-- Where no two keys are confused, a key is that of the same files. -/
theorem lastSet_key_eq (hdistinct : ∀ call ∈ calls, generateKey hasher call.request =
    generateKey hasher request → hashInput call.request = hashInput request) :
    lastSet (fun r => generateKey hasher r = generateKey hasher request) calls =
      lastSet (fun r => SameFiles r request) calls := by
  refine lastSet_congr fun call hcall => decide_eq_decide.2 ⟨fun hkey => ?_, fun hfiles => ?_⟩
  · exact hashInput_eq_iff.1 (hdistinct call hcall hkey)
  · rw [generateKey, generateKey, hashInput_eq_iff.2 hfiles]

/-- **Results are those of the requests exactly where the samples agree**: in every
sequence of calls in which different hash inputs have different keys. -/
theorem faithful_iff (hasher : DefaultHasher) (ttl : Duration)
    (h : ttl.nanos ≤ Duration.max.nanos) (calls : List CacheCall)
    (hdistinct : ∀ call ∈ calls, ∀ call' ∈ calls, generateKey hasher call.request =
      generateKey hasher call'.request → hashInput call.request = hashInput call'.request) :
    Faithful hasher ttl h calls ↔ SamplesAgree ttl calls := by
  refine forall₅_congr fun before request now rest hcalls => ?_
  have hkeys : lastSet (fun r => generateKey hasher r = generateKey hasher request) before =
      lastSet (fun r => SameFiles r request) before := lastSet_key_eq fun call hcall =>
    hdistinct call (by simp [hcalls, hcall]) (.get request now) (by simp [hcalls])
  have hfiles : ∀ r data setAt, lastSet (fun r => SameFiles r request) before =
      some (r, data, setAt) → SameFiles r request :=
    fun r data setAt hlast => of_decide_eq_true (kind_of_lastSet hlast)
  simp only [get_after_eq_some_iff, hkeys]
  constructor
  · intro hfaithful r data setAt hlast hfresh
    obtain ⟨_, heq, -⟩ := hfaithful data ⟨r, setAt, hlast, hfresh⟩
    rw [hlast] at heq
    cases heq
    rfl
  · rintro hagree data ⟨r, setAt, hlast, hfresh⟩
    obtain rfl := (hfiles r data setAt hlast).eq_iff.2 (hagree r data setAt hlast hfresh)
    exact ⟨setAt, hlast, hfresh⟩

/-- A request for one video and one subtitle with some content. -/
def sampleRequest (contentPreview : Text) : AnalysisRequest where
  videoFiles := ["video1.mp4".toList]
  subtitleFiles := ["sub1.srt".toList]
  contentSamples := [⟨"sub1.srt".toList, "sub_id".toList, contentPreview, 123⟩]

/-- What the hasher makes of these two files. -/
def sampleHasher : DefaultHasher := fun _ => 7577433323589766000

/-- A result set for one content, and asked for with another. -/
def sampleCalls : List CacheCall :=
  [.set (sampleRequest "one".toList) ⟨[]⟩ 0, .get (sampleRequest "two".toList) 1]

theorem sampleCalls_faithful_iff :
    Faithful sampleHasher ⟨60000000000⟩ (by decide) sampleCalls ↔
      SamplesAgree ⟨60000000000⟩ sampleCalls :=
  faithful_iff sampleHasher ⟨60000000000⟩ (by decide) sampleCalls (by decide +kernel)

/-- **The other content is answered for**: the two requests have one key. -/
theorem sampleCalls_not_faithful :
    ¬ Faithful sampleHasher ⟨60000000000⟩ (by decide) sampleCalls := fun h => by
  obtain ⟨setAt, hlast, -⟩ := h [.set (sampleRequest "one".toList) ⟨[]⟩ 0]
    (sampleRequest "two".toList) 1 [] rfl ⟨[]⟩ (by decide +kernel)
  have hone : (lastSet (fun r => generateKey sampleHasher r =
      generateKey sampleHasher (sampleRequest "two".toList))
      [.set (sampleRequest "one".toList) ⟨[]⟩ 0]).map (fun set => set.1.contentSamples) =
        some (sampleRequest "one".toList).contentSamples := by decide +kernel
  rw [hlast] at hone
  have hsamples : (sampleRequest "two".toList).contentSamples =
      (sampleRequest "one".toList).contentSamples := Option.some.inj hone
  exact absurd hsamples (by decide)

end SubxCore.Ai
