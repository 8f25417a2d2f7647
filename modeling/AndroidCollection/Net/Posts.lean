import AndroidCollection.Net.Forms

/-!
# The two posts of a text

The bodies which `postHttp` and `postHttps` write are equal only if decoding has
nothing to do in the text, and both routines throw on an answer which cannot be
decoded.
-/

namespace AndroidCollection.Net

open Java

/-! ## The properties of the posts -/

/-- Whenever a connection of the right class takes a body, form decoding recovers the entries of the
map from it. -/
def Recovers (casts : Protocol → Bool) (post : Bool → Option Connection → JString → Posted)
    (entries : List (JString × JString)) : Prop :=
  ∀ connect : Connection, casts connect.protocol = true → connect.getsOutputStream = true →
    ∃ body pairs, (post true (some connect) (encodeUrl (nonNull entries))).written = some body ∧
      formDecode body = some pairs ∧ ∀ entry, entry ∈ pairs ↔ entry ∈ entries

/-- A result which the callback has been given too, or an error callback. -/
def Ended.Reports : Ended → Prop
  | .returned (some (.onSuccess reported)) (some result) => reported = result
  | .returned (some (.onError _)) none => True
  | _ => False

/-- With a callback, both routines write the same and end in a callback. -/
structure PostsAgree (network : Option Connection) (data : JString) : Prop where
  body : (postHttp true network data).written = (postHttps true network data).written
  http : (postHttp true network data).ended.Reports
  https : (postHttps true network data).ended.Reports

/-! ## The conditions -/

/-- The escapes in an answer which is read are well formed. -/
def AnswerSafe (connect : Connection) : Prop :=
  connect.responseCode = some 200 →
    ∀ response ∈ connect.response, URLDecoder.WellEscaped (joinLines (utf8Decode response))

/-- The connection is of the class to which both routines cast it; when it takes a body, decoding
has nothing to do in the data, and when the body has been sent, the answer can be decoded. -/
def PostSafe (network : Option Connection) (data : JString) : Prop :=
  ∀ connect ∈ network, connect.protocol = .https ∧
    (connect.getsOutputStream = true → (percentSign ∉ data ∧ plusSign ∉ data) ∧
      (connect.writesBody = true → AnswerSafe connect))

/-! ## Equal bodies -/

theorem scalar_plusSign : Scalar plusSign := by
  decide

/-- Decoding first makes no difference to the body only when it changes nothing. -/
theorem decoded_body_iff (data : JString) :
    (URLDecoder.decode data).map utf8Bytes = some (utf8Bytes data) ↔
      percentSign ∉ data ∧ plusSign ∉ data := by
  constructor
  · intro same
    rcases Option.map_eq_some_iff.1 same with ⟨decoded, decodes, bytes⟩
    have texts : replaceLone decoded = replaceLone data := by
      rw [← utf8Decode_utf8Bytes, bytes, utf8Decode_utf8Bytes]
    have lengths : decoded.length = data.length := by
      rw [← length_replaceLone, texts, length_replaceLone]
    have shorter := URLDecoder.length_decode_le decodes
    have noPercent : percentSign ∉ data := by
      apply List.count_eq_zero.1
      omega
    refine ⟨noPercent, ?_⟩
    intro plus
    rw [URLDecoder.decode_of_notMem noPercent, Option.some.injEq] at decodes
    rw [← mem_replaceLone scalar_plusSign (by decide), ← texts,
      mem_replaceLone scalar_plusSign (by decide), ← decodes] at plus
    rcases List.mem_map.1 plus with ⟨unit, _, isPlus⟩
    exact URLDecoder.plain_ne_plusSign unit isPlus
  · rintro ⟨noPercent, noPlus⟩
    rw [URLDecoder.decode_of_notMem noPercent, URLDecoder.map_plain_of_notMem noPlus]
    rfl

/-! ## Callbacks -/

theorem reports_failed (routine : Routine) : (routine.failed true).Reports :=
  trivial

theorem reports_answered_iff (routine : Routine) (response : List UInt8) (closesReader : Bool) :
    (routine.answered true response closesReader).Reports ↔
      URLDecoder.WellEscaped (joinLines (utf8Decode response)) := by
  rw [← URLDecoder.decode_isSome_iff]
  simp only [Routine.answered]
  cases URLDecoder.decode (joinLines (utf8Decode response)) with
  | none => simp [Ended.Reports]
  | some printed =>
      cases closesReader
      · simp [reports_failed]
      · simp [Ended.Reports]

theorem reports_receive_iff (routine : Routine) (connect : Connection) :
    (routine.receive true connect).Reports ↔ AnswerSafe connect := by
  simp only [Routine.receive, AnswerSafe]
  cases connect.responseCode with
  | none => simp [reports_failed]
  | some responseCode =>
      by_cases ok : responseCode = 200
      · cases connect.response with
        | none => simp [ok, reports_failed]
        | some response => simpa [ok] using reports_answered_iff routine response _
      · simp [ok, Routine.refused, Ended.Reports]

/-- A routine whose connection is of the right class and takes the body. -/
theorem post_of_accepted {routine : Routine} {connect : Connection} {data : JString}
    {bytes : List UInt8} (casts : routine.casts connect.protocol = true)
    (accepts : connect.getsOutputStream = true) (body : routine.body data = some bytes) :
    routine.post true (some connect) data =
      ⟨some bytes, if connect.writesBody then routine.receive true connect
        else routine.failed true⟩ := by
  simp [Routine.post, casts, accepts, body]

theorem reports_sent_iff (routine : Routine) (connect : Connection) :
    (if connect.writesBody then routine.receive true connect else routine.failed true).Reports ↔
      (connect.writesBody = true → AnswerSafe connect) := by
  cases connect.writesBody
  · simp [reports_failed]
  · simp [reports_receive_iff]

theorem postHttps_of_accepted {connect : Connection}
    (casts : httpsRoutine.casts connect.protocol = true)
    (accepts : connect.getsOutputStream = true) (data : JString) :
    postHttps true (some connect) data =
      ⟨some (utf8Bytes data), if connect.writesBody then httpsRoutine.receive true connect
        else httpsRoutine.failed true⟩ :=
  post_of_accepted casts accepts rfl

theorem postHttp_of_accepted {connect : Connection}
    (casts : httpRoutine.casts connect.protocol = true)
    (accepts : connect.getsOutputStream = true) {data decoded : JString}
    (decodes : URLDecoder.decode data = some decoded) :
    postHttp true (some connect) data =
      ⟨some (utf8Bytes decoded), if connect.writesBody then httpRoutine.receive true connect
        else httpRoutine.failed true⟩ :=
  post_of_accepted casts accepts (by simp [httpRoutine, decodes])

/-- On a connection which takes a body. -/
theorem postsAgree_accepted_iff {connect : Connection} (isHttps : connect.protocol = .https)
    (accepts : connect.getsOutputStream = true) (data : JString) :
    PostsAgree (some connect) data ↔
      (percentSign ∉ data ∧ plusSign ∉ data) ∧
        (connect.writesBody = true → AnswerSafe connect) := by
  rw [← decoded_body_iff]
  have https := postHttps_of_accepted (by simp [httpsRoutine, isHttps]) accepts data
  cases decodes : URLDecoder.decode data with
  | none =>
      apply iff_of_false
      · intro agree
        have thrown := agree.http
        simp [postHttp, Routine.post, httpRoutine, isHttps, accepts, decodes, Ended.Reports]
          at thrown
      · simp
  | some decoded =>
      have http := postHttp_of_accepted (by simp [httpRoutine, isHttps]) accepts decodes
      constructor
      · intro agree
        have reports := agree.https
        have body := agree.body
        rw [http, https] at body
        rw [https] at reports
        exact ⟨body, (reports_sent_iff _ _).1 reports⟩
      · rintro ⟨body, answer⟩
        refine ⟨?_, ?_, ?_⟩
        · rw [http, https]
          exact body
        · rw [http]
          exact (reports_sent_iff _ _).2 answer
        · rw [https]
          exact (reports_sent_iff _ _).2 answer

theorem postsAgree_iff (network : Option Connection) (data : JString) :
    PostsAgree network data ↔ PostSafe network data := by
  cases network with
  | none => exact iff_of_true ⟨rfl, reports_failed _, reports_failed _⟩ (by simp [PostSafe])
  | some connect =>
      simp only [PostSafe, Option.mem_some_iff, forall_eq']
      by_cases isHttps : connect.protocol = .https
      · rw [and_iff_right isHttps]
        by_cases accepts : connect.getsOutputStream = true
        · rw [postsAgree_accepted_iff isHttps accepts, forall_prop_of_true accepts]
        · apply iff_of_true _ fun taken => absurd taken accepts
          constructor <;>
            simp [postHttp, postHttps, Routine.post, httpRoutine, httpsRoutine, isHttps, accepts,
              reports_failed]
      · -- the cast of `postHttps` throws
        apply iff_of_false _ fun safe => isHttps safe.1
        intro agree
        have thrown := agree.https
        simp [postHttps, Routine.post, httpsRoutine, isHttps, Ended.Reports] at thrown

/-! ## The form of a map -/

variable {entries : List (JString × JString)}

/-- A connection on which nothing comes back. -/
def silent : Connection where
  protocol := .https
  getsOutputStream := true
  writesBody := true
  responseCode := none
  response := none
  closesReader := true

theorem recovers_postHttps_iff :
    Recovers httpsRoutine.casts postHttps entries ↔ ∀ entry ∈ entries, Paired entry := by
  have written {connect : Connection} (casts : httpsRoutine.casts connect.protocol = true)
      (accepts : connect.getsOutputStream = true) :
      (postHttps true (some connect) (encodeUrl (nonNull entries))).written =
        some (utf8Bytes (formText (entries.map (mapBoth URLEncoder.encode)))) := by
    rw [postHttps_of_accepted casts accepts, encodeUrl_nonNull]
  constructor
  · intro recovers
    rcases recovers silent rfl rfl with ⟨body, pairs, isWritten, decodes, recovered⟩
    rw [written rfl rfl] at isWritten
    cases isWritten
    rw [formDecode_encoded] at decodes
    cases decodes
    exact paired_of_recovered fun entry member => (recovered entry).2 member
  · intro paired connect casts accepts
    refine ⟨_, _, written casts accepts, formDecode_encoded entries, ?_⟩
    rw [map_replaceLone_of_paired paired]
    exact fun entry => Iff.rfl

theorem recovers_postHttp_iff : Recovers httpRoutine.casts postHttp entries ↔ FormSafe entries := by
  have written {connect : Connection} (casts : httpRoutine.casts connect.protocol = true)
      (accepts : connect.getsOutputStream = true) :
      (postHttp true (some connect) (encodeUrl (nonNull entries))).written =
        some (utf8Bytes (formText (entries.map (mapBoth replaceLone)))) := by
    rw [encodeUrl_nonNull, postHttp_of_accepted casts accepts (decode_formText entries)]
  constructor
  · intro recovers
    rcases recovers silent rfl rfl with ⟨body, pairs, isWritten, decodes, recovered⟩
    rw [written rfl rfl] at isWritten
    cases isWritten
    have parts := decodes
    rw [formDecode_utf8Bytes, map_replaceLone_replaceLone] at parts
    have unreserved : ∀ entry ∈ entries, Unreserved entry := by
      intro entry member
      exact unreserved_of_recovered parts (fun other => (recovered other).2) member
    rw [formDecode_decoded unreserved] at decodes
    cases decodes
    have paired := paired_of_recovered fun entry member => (recovered entry).2 member
    exact fun entry member => ⟨paired entry member, unreserved entry member⟩
  · intro safe connect casts accepts
    refine ⟨_, _, written casts accepts,
      formDecode_decoded fun entry member => (safe entry member).2, ?_⟩
    rw [map_replaceLone_of_paired fun entry member => (safe entry member).1]
    exact fun entry => Iff.rfl

end AndroidCollection.Net
