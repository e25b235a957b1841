import RemoteControl.Commands.IdCommands
import RemoteControl.Commands.IdEndpoints

/-!
# Ids that do not fit in 32 bits

An integer that does not fit is taken for the id it wraps to.

* `actsOn_of_given`: what a request does, it does to the object with the id it wraps to.
* `no_alias_iff`: when an id never stands for another.
-/

namespace RemoteControl

variable {ι : Type}

/-! ## Narrowing -/

def Fits (n : Int) : Prop := -2 ^ 31 ≤ n ∧ n < 2 ^ 31

instance decidableFits (n : Int) : Decidable (Fits n) :=
  inferInstanceAs (Decidable (-2 ^ 31 ≤ n ∧ n < 2 ^ 31))

theorem toInt_ofInt_iff {n : Int} : (BitVec.ofInt 32 n).toInt = n ↔ Fits n := by
  rw [BitVec.toInt_ofInt, Fits, Int.bmod_def]
  omega

/-! ## Both kinds of request -/

/-- A request that is given an id: in its parameters, or in its path. -/
inductive IdRequest (ι : Type)
  | rpc (command : RpcCommand ι) (scene : Scene ι) (params : Json)
  | url (endpoint : UrlEndpoint ι) (path : Bytes)

namespace IdRequest

/-- The integer, as the client wrote it. -/
def given : IdRequest ι → Option Int
  | rpc command _ params =>
    match params.member command.key with
    | some (.int n) => some n
    | _ => none
  | url endpoint path =>
    (Http.matchPieces endpoint.pattern path).bind fun groups => groups.head?.map decimalValue

/-- All that the request does, it does to objects with these ids. -/
def ActsOn (r : IdRequest ι) (ids : PluginId → Prop) : Prop :=
  match r with
  | rpc command scene params => command.ActsOn scene params ids
  | url endpoint path => ∀ groups, Http.matchPieces endpoint.pattern path = some groups →
      endpoint.ActsOn groups ids

def AnswersNotFound : IdRequest ι → Prop
  | rpc command scene params => command.AnswersNotFound scene params
  | url endpoint path =>
    ∃ groups, Http.matchPieces endpoint.pattern path = some groups ∧
      endpoint.AnswersNotFound groups

/-- The calls the request makes and what it tells in a success are of the object whose id is the
integer; and it answers that there is none when the integer is too wide to be an id. -/
structure NoAlias (r : IdRequest ι) (n : Int) : Prop where
  exact_id : r.ActsOn fun id => id.toInt = n
  unfit : ¬Fits n → r.AnswersNotFound

/-- What the integer wraps to names nothing, and the request comes to answer so. -/
def Misses (r : IdRequest ι) (n : Int) : Prop :=
  match r with
  | rpc command scene params => command.Misses scene params (BitVec.ofInt 32 n)
  | url endpoint _ => endpoint.Misses n

section

variable {r : IdRequest ι} {n : Int}

theorem int32_of_given {command : RpcCommand ι} {scene : Scene ι} {params : Json}
    (h : (rpc command scene params).given = some n) :
    params.int32 command.key = some (BitVec.ofInt 32 n) := by
  unfold given at h
  unfold Json.int32
  cases hmember : params.member command.key with
  | none => simp [hmember] at h
  | some value => cases value <;> simp_all

theorem groups_of_given {endpoint : UrlEndpoint ι} {path : Bytes}
    (h : (url endpoint path).given = some n) :
    ∃ number groups, Http.matchPieces endpoint.pattern path = some (number :: groups) ∧
      IsNumber number ∧ decimalValue number = n := by
  obtain ⟨groups, hgroups, hhead⟩ := Option.bind_eq_some_iff.mp h
  obtain ⟨number, hnumber, hn⟩ := Option.map_eq_some_iff.mp hhead
  obtain ⟨rest, rfl⟩ := List.head?_eq_some_iff.mp hnumber
  exact ⟨number, rest, hgroups, isNumber_of_matchPieces hgroups _ List.mem_cons_self, hn⟩

/-- What is done is done to the id the integer narrows to. -/
theorem actsOn_of_given (h : r.given = some n) {ids : PluginId → Prop}
    (hids : ids (BitVec.ofInt 32 n)) : r.ActsOn ids := by
  cases r with
  | rpc command scene params => exact command.actsOn (int32_of_given h) hids
  | url endpoint path =>
    obtain ⟨number, rest, hgroups, hnumber, rfl⟩ := groups_of_given h
    intro groups hgroups'
    cases hgroups.symm.trans hgroups'
    refine endpoint.actsOn fun m hm => ?_
    rw [stoll_of_isNumber hnumber] at hm
    split at hm
    · exact Option.some.inj hm ▸ hids
    · cases hm

theorem answersNotFound_iff (h : r.given = some n) : r.AnswersNotFound ↔ r.Misses n := by
  cases r with
  | rpc command scene params => exact command.answersNotFound_iff (int32_of_given h)
  | url endpoint path =>
    obtain ⟨number, rest, hgroups, hnumber, rfl⟩ := groups_of_given h
    rw [Misses, ← endpoint.answersNotFound_iff rest hnumber]
    simp only [AnswersNotFound, hgroups, Option.some.injEq, exists_eq_left']

theorem ActsOn.of_answersNotFound (h : r.AnswersNotFound) (ids : PluginId → Prop) :
    r.ActsOn ids := by
  cases r with
  | rpc command scene params => exact RpcCommand.ActsOn.of_answersNotFound h ids
  | url endpoint path =>
    obtain ⟨groups, hgroups, hnothing⟩ := h
    intro groups' hgroups'
    cases hgroups.symm.trans hgroups'
    exact UrlEndpoint.ActsOn.of_answersNotFound hnothing ids

end

/-- **An id never stands for another** exactly when the integer fits in 32 bits, or the
request comes to find nothing under what it wraps to. -/
theorem no_alias_iff {r : IdRequest ι} {n : Int} (h : r.given = some n) :
    r.NoAlias n ↔ Fits n ∨ r.Misses n := by
  by_cases hfits : Fits n
  · exact iff_of_true ⟨actsOn_of_given h (toInt_ofInt_iff.mpr hfits),
      fun hunfit => absurd hfits hunfit⟩ (.inl hfits)
  · rw [or_iff_right hfits, ← answersNotFound_iff h]
    exact ⟨fun hnoAlias => hnoAlias.unfit hfits,
      fun hnothing => ⟨.of_answersNotFound hnothing _, fun _ => hnothing⟩⟩

/-! ## One track -/

/-- RemoveTrack of the only track of a player, by this integer. -/
def removal (session : IdSession) (n : Int) : IdRequest Unit :=
  .rpc (.removeTrack false) ⟨oneTrackPlayer, session, .noService⟩
    (.obj [(ascii "track_id", .int n)])

/-- The track is removed, and success replied. -/
def RemovesTheTrack (session : IdSession) (n : Int) : Prop :=
  (RemoteControl.removeTrack false ⟨oneTrackPlayer, session.manager, .noService⟩
    (.obj [(ascii "track_id", .int n)]) : Outcome Unit) =
      { reply := .rpc (.ok success), ran := true, calls := [⟨.delete (ascii "P") (), sOk⟩] }

theorem removesTheTrack {id : PluginId} {session : IdSession} {n : Int}
    (hissued : trackId (ascii "P") 0 .empty = some (id, session)) (hn : BitVec.ofInt 32 n = id) :
    RemovesTheTrack session n := by
  have hfound : findPlaylistItem oneTrackPlayer session.manager id = some ((), onlyPlaylist) := by
    rw [findPlaylistItem, IdSession.playlistItemGetKey_of_issued
      (trackId_grows (ascii "P") 0 _ _ _ hissued).2]
    rfl
  have hid : (Json.obj [(ascii "track_id", .int n)]).int32 (ascii "track_id") = some id :=
    congrArg some hn
  have hphysically : (Json.obj [(ascii "track_id", .int n)]).boolValue (ascii "physically") false =
      some false := by
    have hkeys : ascii "track_id" ≠ ascii "physically" := by decide
    simp [Json.boolValue, Json.member, hkeys]
  rw [RemovesTheTrack, RemoteControl.removeTrack, hid, hphysically]
  simp only [finish, runOnMainThread, removeTrackTask, hfound]
  rfl

theorem firstId_issued : ∃ id session, trackId (ascii "P") 0 .empty = some (id, session) := by
  obtain ⟨⟨id, session⟩, hissued⟩ : ∃ issued, trackId (ascii "P") 0 .empty = some issued :=
    Option.isSome_iff_exists.mp (by decide +kernel)
  exact ⟨id, session, hissued⟩

/-- By its own id a track is removed, and no other. -/
theorem no_alias_sample : ∃ id session, trackId (ascii "P") 0 .empty = some (id, session) ∧
    RemovesTheTrack session id.toInt ∧ (removal session id.toInt).NoAlias id.toInt := by
  obtain ⟨id, session, hissued⟩ := firstId_issued
  refine ⟨id, session, hissued, removesTheTrack hissued (BitVec.ofInt_toInt), ?_⟩
  exact (no_alias_iff rfl).mpr (.inl (toInt_ofInt_iff.mp (by rw [BitVec.ofInt_toInt])))

/-- With the first track's id issued, RemoveTrack of `2 ^ 32` more removes that track. -/
theorem wide_id_removes_track : ∃ id session,
    trackId (ascii "P") 0 .empty = some (id, session) ∧
      RemovesTheTrack session (2 ^ 32 + id.toInt) ∧
      ¬(removal session (2 ^ 32 + id.toInt)).NoAlias (2 ^ 32 + id.toInt) := by
  obtain ⟨id, session, hissued⟩ := firstId_issued
  have hwrap : BitVec.ofInt 32 (2 ^ 32 + id.toInt) = id := by
    rw [BitVec.ofInt_add, BitVec.ofInt_toInt]
    simp
  have hremoves := removesTheTrack hissued hwrap
  have hcalls := congrArg Outcome.calls hremoves
  refine ⟨id, session, hissued, hremoves, fun h => ?_⟩
  obtain ⟨id', object, hid', -, -⟩ := h.exact_id.calls _ rfl ⟨.delete (ascii "P") (), sOk⟩ (by
    change _ ∈ (RemoteControl.removeTrack false ⟨oneTrackPlayer, session.manager, .noService⟩
      (.obj [(ascii "track_id", .int (2 ^ 32 + id.toInt))])).calls
    rw [hcalls]
    exact List.mem_singleton_self _)
  have hlow := BitVec.le_toInt id
  have hhigh := BitVec.toInt_lt (x := id')
  omega

end IdRequest

end RemoteControl
