import DocClient.Proofs.Json.Reader
import DocClient.Proofs.Login.Decision
import DocClient.Proofs.Wire.RequestStream

/-!
Credentials and the line that brings them to the server: whatever characters they hold, they are
read back from it, so no two of them share a line.
-/
namespace DocClient

open Text (Bytes)

namespace LoginEncoding

/-- The credentials in the data of a login: the two texts around the one comma, or two members of
an object. -/
def decode? (format : LoginEncoding) (data : String) : Option Credentials :=
  match format with
  | comma =>
    match data.toList.splitOn ',' with
    | [username, password] => some ⟨.ofList username, .ofList password⟩
    | _ => none
  | json =>
    match Json.parse data.toList with
    | .ok (.object doc) =>
      match doc.lookup "username", doc.lookup "password" with
      | some (.string username), some (.string password) => some ⟨username, password⟩
      | _, _ => none
    | _ => none

/-- The credentials in a line, if it is that of a login. -/
def ofLine? (format : LoginEncoding) (line : Bytes) : Option Credentials :=
  match Request.ofBytes? line with
  | some ⟨.login, some data⟩ => format.decode? data
  | _ => none

variable {format : LoginEncoding} {c c' : Credentials} {data data' : String}

theorem hasComma_iff {text : String} : hasComma text = true ↔ ',' ∈ text.toList := by
  simp [hasComma]

/-- Only a comma keeps credentials from being encoded, and only where a comma parts them. -/
theorem encode_error_iff : (∃ f, format.encode c = .error f) ↔
    format = .comma ∧ (',' ∈ c.username.toList ∨ ',' ∈ c.password.toList) := by
  cases format with
  | json => simp [encode]
  | comma =>
    have hcomma : hasComma c.username || hasComma c.password ↔
        ',' ∈ c.username.toList ∨ ',' ∈ c.password.toList := by
      rw [Bool.or_eq_true, hasComma_iff, hasComma_iff]
    rw [← hcomma, encode]
    split <;> simp [*]

theorem splitOn_comma {front back : List Char} (hf : ',' ∉ front) (hb : ',' ∉ back) :
    (front ++ ',' :: back).splitOn ',' = [front, back] := by
  have hplain {cs : List Char} (h : ',' ∉ cs) : List.splitOnP (· == ',') cs = [cs] := by
    apply List.splitOnP_eq_singleton
    intro x hx
    exact beq_false_of_ne fun he => h (he ▸ hx)
  have hparts : List.splitOnP (· == ',') (front ++ ',' :: back)
      = List.splitOnP (· == ',') front ++ List.splitOnP (· == ',') back :=
    List.splitOnP_append_cons front back rfl
  rw [hplain hf, hplain hb] at hparts
  exact hparts

/-- The object that carries credentials, with its members in the order of their keys. -/
def bearer (username password : String) : OrderedJson where
  json := .object [("password", .string password), ("username", .string username)]
  ordered := by
    apply Json.ordered_object
    · have hkeys : "password" < "username" := by decide
      exact List.pairwise_pair.mpr hkeys
    · intro m hm
      simp only [List.mem_cons, List.not_mem_nil, or_false] at hm
      rcases hm with rfl | rfl <;> simp [Json.Ordered]

theorem parse_bearer (username password : String) :
    Json.parse (bearer username password).json.chars = .ok (bearer username password).json := by
  apply OrderedJson.parse_chars
  · apply Json.numbers_object
    intro m hm
    simp only [List.mem_cons, List.not_mem_nil, or_false] at hm
    rcases hm with rfl | rfl <;> simp [Json.Numbers]
  · simp [bearer, Json.nesting, Json.membersNesting, Json.maxDepth]

/-- What is encoded is decoded. -/
theorem decode?_encode (h : format.encode c = .ok data) : format.decode? data = some c := by
  cases format with
  | comma =>
    have hc : ¬ (hasComma c.username || hasComma c.password) = true := by
      intro hc
      simp [encode, hc] at h
    obtain ⟨hu, hp⟩ : ',' ∉ c.username.toList ∧ ',' ∉ c.password.toList := by
      simpa [hasComma_iff] using hc
    rw [encode, if_neg hc] at h
    obtain rfl := Except.ok.inj h
    have hdata : (c.username ++ "," ++ c.password).toList
        = c.username.toList ++ ',' :: c.password.toList := by
      simp
    simp only [decode?, hdata, splitOn_comma hu hp, String.ofList_toList]
  | json =>
    obtain rfl := Except.ok.inj h
    have hparse := parse_bearer c.username c.password
    rw [bearer] at hparse
    simp only [decode?, Json.render, String.toList_ofList, hparse]
    rfl

theorem ofLine?_login (h : format.encode c = .ok data) :
    format.ofLine? (Text.utf8 (Request.login data).line) = some c := by
  simp only [ofLine?, Request.ofBytes?_line]
  exact decode?_encode h

/-- A line that tells credentials, and nothing that would end it. -/
structure Tells (format : LoginEncoding) (c : Credentials) (line : Bytes) : Prop where
  recovered : format.ofLine? line = some c
  unbroken : ∀ b ∈ line, 0x20 ≤ b

theorem tells_login (h : format.encode c = .ok data) :
    Tells format c (Text.utf8 (Request.login data).line) where
  recovered := ofLine?_login h
  unbroken := by
    intro b hb
    exact UInt8.le_iff_toNat_le.mpr
      (Text.control_not_mem_utf8 (Request.line_printable (.login data)) hb)

theorem login_line_inj (h : format.encode c = .ok data) (h' : format.encode c' = .ok data')
    (hline : (Request.login data).line = (Request.login data').line) : c = c' := by
  have hrecovered := ofLine?_login h
  rw [hline, ofLine?_login h'] at hrecovered
  exact (Option.some.inj hrecovered).symm

end LoginEncoding

namespace Session

variable {credentials : Credentials} {wire : WireConventions} {w : Window} {e e' e₁ : Endpoint}
  {data : String} {greeting : Option String} {result : Except Halt Session}

theorem written_of_received {received : Except Halt String}
    (h : Endpoint.Received w e received e') :
    written e'.link.transcript = written e.link.transcript := by
  rcases h.transcript with ⟨line, ht⟩ | ⟨ht, -⟩ <;> simp [ht]

theorem written_of_greeted {greeting : Except Halt (Option String)}
    (h : Greeted wire w e greeting e') :
    written e'.link.transcript = written e.link.transcript ∧
      e'.link.delimiter = e.link.delimiter := by
  cases h with
  | silent h => exact ⟨rfl, rfl⟩
  | greeted h hr | ungreeted h hr => exact ⟨written_of_received hr, hr.delimiter⟩

theorem written_of_login {greeting : Except Halt (Option String)} {e₂ : Endpoint}
    (hg : Greeted wire w e greeting e₁)
    (hs : Endpoint.Sent (Request.login data).line shownLogin e₁ (.ok ()) e₂) :
    written e₂.link.transcript
      = written e.link.transcript ++ [(Request.login data).frame e.link.delimiter] := by
  obtain ⟨hw, hd⟩ := written_of_greeted hg
  rw [Link.write_transcript hs.write, written_append, hw, Endpoint.frame, hd]
  rfl

/-- A handshake writes the line of its login, or nothing. -/
theorem written_of_handshake (h : handshake credentials wire w e = (result, e')) :
    written e'.link.transcript = written e.link.transcript ∨
      ∃ data, wire.loginEncoding.encode credentials = .ok data ∧
        written e'.link.transcript
          = written e.link.transcript ++ [(Request.login data).frame e.link.delimiter] := by
  cases shaken_of_handshake h with
  | ungreeted hg | unencoded hg hd => exact Or.inl (written_of_greeted hg).1
  | unsent hg hd hs =>
    left
    rcases hs.transcript with ⟨ht, -⟩ | ⟨-, ht⟩
    · simp at ht
    · rw [ht, (written_of_greeted hg).1]
  | unanswered hg hd hs hr | answered hg hd hs hr =>
    exact Or.inr ⟨_, hd, (written_of_received hr).trans (written_of_login hg hs)⟩

/-- Once there has been a greeting, if there is to be one, nothing keeps the line back but a channel
that is of no more use. -/
theorem handshake_writes (hd : wire.loginEncoding.encode credentials = .ok data)
    (hg : readGreeting wire w e = (.ok greeting, e₁)) (ho : e₁.closed = false)
    (hr : e₁.link.isReset = false) (h : handshake credentials wire w e = (result, e')) :
    written e'.link.transcript
      = written e.link.transcript ++ [(Request.login data).frame e.link.delimiter] := by
  obtain ⟨e₂, hs, -⟩ := Endpoint.send_whole (Request.login data).line shownLogin ho hr
  rcases hreceive : e₂.receive w with ⟨received, e₃⟩
  have hend : e' = e₃ := by
    simp only [handshake, Exchange.bind_apply, Exchange.check_apply, Exchange.send,
      Exchange.receive, hg, hd, halted, hs, hreceive] at h
    cases received with
    | error halt => exact (Prod.mk.inj h).2.symm
    | ok line =>
      cases hp : Reply.parse line <;> simp only [hp] at h <;> exact (Prod.mk.inj h).2.symm
  rw [hend, written_of_received (Endpoint.received_of_receive hreceive)]
  exact written_of_login (greeted_of_readGreeting hg) (Endpoint.sent_of_send hs)

end Session

/-- Credentials are read back from the line that their login writes, whatever they hold; only a
comma keeps them from being written, and different credentials are written differently. -/
theorem credentials_recovered (credentials : Credentials) (wire : WireConventions) :
    ((∃ f, wire.loginEncoding.encode credentials = .error f) ↔
      wire.loginEncoding = .comma ∧
        (',' ∈ credentials.username.toList ∨ ',' ∈ credentials.password.toList)) ∧
    (∀ w e, ∃ frames,
      written (Session.handshake credentials wire w e).2.link.transcript
        = written e.link.transcript ++ frames ∧
      (frames = [] ∨ ∃ line, frames = [line ++ [e.link.delimiter]] ∧
        wire.loginEncoding.Tells credentials line)) ∧
    (∀ data, wire.loginEncoding.encode credentials = .ok data →
      wire.loginEncoding.Tells credentials (Text.utf8 (Request.login data).line) ∧
      ∀ w e greeting e₁, Session.readGreeting wire w e = (.ok greeting, e₁) →
        e₁.closed = false → e₁.link.isReset = false →
          written (Session.handshake credentials wire w e).2.link.transcript
            = written e.link.transcript
              ++ [Text.utf8 (Request.login data).line ++ [e.link.delimiter]]) ∧
    ∀ credentials' data data', wire.loginEncoding.encode credentials = .ok data →
      wire.loginEncoding.encode credentials' = .ok data' →
      (Request.login data).line = (Request.login data').line → credentials = credentials' := by
  refine ⟨LoginEncoding.encode_error_iff, ?_, ?_, ?_⟩
  · intro w e
    rcases hresult : Session.handshake credentials wire w e with ⟨result, e'⟩
    rcases Session.written_of_handshake hresult with hnone | ⟨data, hd, hw⟩
    · exact ⟨[], by simpa using hnone, Or.inl rfl⟩
    · exact ⟨_, hw, Or.inr ⟨_, rfl, LoginEncoding.tells_login hd⟩⟩
  · intro data hd
    refine ⟨LoginEncoding.tells_login hd, ?_⟩
    intro w e greeting e₁ hg ho hr
    exact Session.handshake_writes hd hg ho hr rfl
  · intro credentials' data data' hd hd' hline
    exact LoginEncoding.login_line_inj hd hd' hline

/-- A name with a comma, a quote and a line break, and no password. -/
theorem credentials_recovered_unruly : ∃ data,
    LoginEncoding.json.encode ⟨"a,\"\n", ""⟩ = .ok data ∧
      LoginEncoding.json.Tells ⟨"a,\"\n", ""⟩ (Text.utf8 (Request.login data).line) ∧
      ∃ f, LoginEncoding.comma.encode ⟨"a,\"\n", ""⟩ = .error f :=
  ⟨_, rfl, ((credentials_recovered _ { loginEncoding := .json }).2.2.1 _ rfl).1,
    (credentials_recovered _ { loginEncoding := .comma }).1.mpr ⟨rfl, Or.inl (by decide)⟩⟩

end DocClient
