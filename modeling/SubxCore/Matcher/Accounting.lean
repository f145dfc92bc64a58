import SubxCore.Matcher.Cache
/-!
# What becomes of a proposal

A call that matches afresh makes something of every proposal of the reply: an
operation of the two files it names, or a rejected candidate with a reason. Both
come in the order of the reply, and the allocator changes where an operation goes
and nothing else. A call that is answered from the cache knows of no proposals, so
it rejects none.
-/

namespace SubxCore

open Text

variable {hasher : Hasher} {call : Call} {session session' : Session} {cacheKey : Text}
variable {config : PlanConfig} {files : FileSystem} {videos subtitles : List MediaFile}
variable {aiMatch : FileMatch} {op : MatchOperation} {candidate : RejectedCandidate}
variable {audit : MatchAudit}

/-- A proposal that makes an operation: confident enough, and of two files that are there. -/
def MakesOperation (config : PlanConfig) (videos subtitles : List MediaFile) (aiMatch : FileMatch) :
    Prop :=
  config.confidenceThreshold ≤ aiMatch.confidence ∧
    (findMediaFileById videos aiMatch.videoFileId).isSome ∧
    (findMediaFileById subtitles aiMatch.subtitleFileId).isSome

instance : DecidablePred (MakesOperation config videos subtitles) := fun _ =>
  inferInstanceAs (Decidable (_ ∧ _ ∧ _))

/-- The candidate another one is rejected as: the confidence is looked at first. -/
def rejection (config : PlanConfig) (videos subtitles : List MediaFile) (aiMatch : FileMatch) :
    RejectedCandidate where
  videoPath := displayPath (findMediaFileById videos aiMatch.videoFileId)
  subtitlePath := displayPath (findMediaFileById subtitles aiMatch.subtitleFileId)
  confidence := aiMatch.confidence
  reason := if aiMatch.confidence < config.confidenceThreshold then "below_threshold".toList
    else "id_not_found".toList

/-- What an operation has of its proposal. -/
def MatchOperation.proposal (op : MatchOperation) :
    Option MediaFile × Option MediaFile × ℚ × List Text :=
  (some op.videoFile, some op.subtitleFile, op.confidence, op.reasoning)

/-- **Every proposal is accounted for**, in the order of the reply. -/
structure Accounts (config : PlanConfig) (videos subtitles : List MediaFile)
    (proposals : List FileMatch) (audit : MatchAudit) : Prop where
  operations : audit.operations.map MatchOperation.proposal =
    (proposals.filter (MakesOperation config videos subtitles)).map fun aiMatch =>
      (findMediaFileById videos aiMatch.videoFileId,
        findMediaFileById subtitles aiMatch.subtitleFileId, aiMatch.confidence,
        aiMatch.matchFactors)
  rejected : audit.rejected =
    (proposals.filter fun aiMatch => ¬ MakesOperation config videos subtitles aiMatch).map
      (rejection config videos subtitles)

/-- There are as many of both as there are proposals. -/
theorem Accounts.length_add_length {proposals : List FileMatch}
    (h : Accounts config videos subtitles proposals audit) :
    audit.operations.length + audit.rejected.length = proposals.length := by
  have hoperations := congrArg List.length h.operations
  rw [List.length_map, List.length_map] at hoperations
  have hsplit := List.length_eq_length_filter_add (l := proposals)
    fun aiMatch => decide (MakesOperation config videos subtitles aiMatch)
  rw [h.rejected, List.length_map, hoperations, hsplit]
  simp

/-! ## One proposal -/

/-- An operation is made of an accepted proposal. -/
theorem makesOperation_of_assembleMatch
    (h : assembleMatch config videos subtitles aiMatch = .ok (.inl op)) :
    MakesOperation config videos subtitles aiMatch ∧
      op.proposal = (findMediaFileById videos aiMatch.videoFileId,
        findMediaFileById subtitles aiMatch.subtitleFileId, aiMatch.confidence,
        aiMatch.matchFactors) := by
  obtain ⟨hconfidence, video, subtitle, hvideo, hsubtitle, hplan⟩ := assembleMatch_eq_inl h
  obtain ⟨target, -, rfl⟩ := planOperation_eq_ok hplan
  rw [MakesOperation, hvideo, hsubtitle]
  exact ⟨⟨hconfidence, rfl, rfl⟩, rfl⟩

/-- And a candidate is rejected for a proposal that is not. -/
theorem eq_rejection_of_assembleMatch
    (h : assembleMatch config videos subtitles aiMatch = .ok (.inr candidate)) :
    ¬ MakesOperation config videos subtitles aiMatch ∧
      candidate = rejection config videos subtitles aiMatch := by
  unfold assembleMatch at h
  dsimp only at h
  split at h
  · next hlow =>
    refine ⟨fun haccepted => absurd hlow (not_lt.2 haccepted.1), ?_⟩
    rw [rejection, if_pos hlow]
    exact (Sum.inr.inj (Except.ok.inj h)).symm
  · next hhigh =>
    split at h
    · next video subtitle hvideo hsubtitle =>
      obtain ⟨op, -, hop⟩ := Run.map_eq_ok.1 h
      cases hop
    · next hnone =>
      refine ⟨fun ⟨_, hvideo, hsubtitle⟩ => ?_, ?_⟩
      · obtain ⟨video, hvideo⟩ := Option.isSome_iff_exists.1 hvideo
        obtain ⟨subtitle, hsubtitle⟩ := Option.isSome_iff_exists.1 hsubtitle
        exact hnone video subtitle hvideo hsubtitle
      · rw [rejection, if_neg hhigh]
        exact (Sum.inr.inj (Except.ok.inj h)).symm

/-! ## All proposals -/

/-- The pass over the reply puts each proposal on one side. -/
theorem accounts_of_assemble : ∀ {proposals : List FileMatch} {audit : MatchAudit},
    assemble config videos subtitles proposals = .ok audit →
    Accounts config videos subtitles proposals audit
  | [], _, h => by
    cases h
    exact ⟨rfl, rfl⟩
  | aiMatch :: proposals, _, h => by
    obtain ⟨made, hmade, h⟩ := Run.bind_eq_ok.1 h
    obtain ⟨audit, hassemble, h⟩ := Run.bind_eq_ok.1 h
    have ih := accounts_of_assemble hassemble
    cases made with
    | inl op =>
      obtain ⟨haccepted, hop⟩ := makesOperation_of_assembleMatch hmade
      cases h
      have hhead : decide (MakesOperation config videos subtitles aiMatch) = true :=
        decide_eq_true haccepted
      constructor
      · dsimp only
        rw [List.filter_cons, if_pos hhead, List.map_cons, List.map_cons, hop, ih.operations]
      · rw [List.filter_cons_of_neg (by simpa using haccepted)]
        exact ih.rejected
    | inr candidate =>
      obtain ⟨hrejected, rfl⟩ := eq_rejection_of_assembleMatch hmade
      cases h
      have hhead : decide (¬ MakesOperation config videos subtitles aiMatch) = true :=
        decide_eq_true hrejected
      constructor
      · rw [List.filter_cons_of_neg (by simpa using hrejected)]
        exact ih.operations
      · dsimp only
        rw [List.filter_cons, if_pos hhead, List.map_cons, ih.rejected]

/-- So does the whole plan, since the allocator leaves what an operation has of its proposal. -/
theorem accounts_of_planOperations {reply : MatchResult}
    (h : planOperations config files videos subtitles reply = .ok audit) :
    Accounts config videos subtitles reply.fileMatches audit := by
  obtain ⟨assembled, hassemble, h⟩ := Run.bind_eq_ok.1 h
  obtain ⟨operations, happly, h⟩ := Run.bind_eq_ok.1 h
  cases h
  have hassembled := accounts_of_assemble hassemble
  refine ⟨?_, hassembled.rejected⟩
  rw [← hassembled.operations]
  exact applyUniqueTargetPaths_map (fun _ _ _ => rfl) happly

/-- **What a call makes of the reply.** A call that asks the provider makes an operation or a
rejected candidate of every proposal, and saves the operations; a call that does not ask has
no candidate, also where it returns operations that were planned together with some. -/
theorem matchFileListWithAudit_accounts
    (h : (matchFileListWithAudit hasher call).exec session = (.ok audit, session')) :
    (session' = session ∧ audit.rejected = []) ∨
      ∃ request reply, session'.requests = session.requests ++ [request] ∧
        call.provider request = .ok reply ∧
        Accounts call.config call.videos call.subtitles reply.fileMatches audit ∧
        audit.operations.length + audit.rejected.length = reply.fileMatches.length ∧
        session'.cache = some (cacheDataOf hasher call.config call.world (call.key hasher)
          audit.operations) := by
  rcases exec_eq_ok h with ⟨-, rfl, rfl⟩ | ⟨-, ⟨ops, -, rfl, rfl⟩ | ⟨-, hafresh⟩⟩
  · exact .inl ⟨rfl, rfl⟩
  · exact .inl ⟨rfl, rfl⟩
  · obtain ⟨request, reply, -, hreply, hplan, -, -, rfl⟩ := matchAfresh_eq_ok hafresh
    have haccounts := accounts_of_planOperations hplan
    exact .inr ⟨request, reply, rfl, hreply, haccounts, haccounts.length_add_length, rfl⟩

/-- A call with one proposal that is accepted, one for a file that is not there and one that
is not confident enough. -/
def proposingCall : Call :=
  filmCall .none (1 / 2) filmPaths [(['0'], ['1'], 1), (['0'], ['9'], 1), (['9'], ['2'], 0)]

theorem matchFileListWithAudit_accounts_film : ∃ audit reply,
    audit.operations.length + audit.rejected.length = 3 ∧
      (audit.rejected.map RejectedCandidate.reason) =
        ["id_not_found".toList, "below_threshold".toList] ∧
      Accounts proposingCall.config proposingCall.videos proposingCall.subtitles reply audit := by
  have hrun : ((matchFileListWithAudit plainHasher proposingCall).exec ⟨none, []⟩).1.toOption.map
      (fun audit => (audit.operations.length + audit.rejected.length,
        audit.rejected.map RejectedCandidate.reason)) =
      some (3, ["id_not_found".toList, "below_threshold".toList]) := by decide +kernel
  rcases hexec : (matchFileListWithAudit plainHasher proposingCall).exec ⟨none, []⟩ with
    ⟨stop | audit, session'⟩
  · rw [hexec] at hrun
    cases hrun
  · rw [hexec] at hrun
    obtain ⟨hlength, hreasons⟩ := Prod.mk.inj (Option.some.inj hrun)
    rcases matchFileListWithAudit_accounts hexec with
      ⟨-, hnone⟩ | ⟨_, reply, -, -, haccounts, -, -⟩
    · rw [hnone] at hreasons
      cases hreasons
    · exact ⟨audit, reply.fileMatches, hlength, hreasons, haccounts⟩

end SubxCore
