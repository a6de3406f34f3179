import Awl.Config
import Awl.ProxyRules

/-!
A connection of a local client to the SOCKS5 proxy, and the bytes that the node itself writes to it:
the selection of an authentication method, and a reply if the request cannot be served.

With peers that support it, the method is negotiated on this side; with others the bytes of the
client are passed on. When a connection cannot be served, a second negotiation is begun in order to
send the reply. What the SOCKS5 library reads in a negotiation is assumed.
-/

namespace Awl

open NetIP

namespace Socks5

/-! ### The connection -/

/-- The bytes of a call of `Write`, and how many of them got out before it failed. -/
structure Written where
  msg : List UInt8
  count : ℕ
  deriving DecidableEq

def Written.Complete (w : Written) : Prop := w.count = w.msg.length

instance (w : Written) : Decidable w.Complete := inferInstanceAs (Decidable (_ = _))

/-- A connection: the bytes the client sends that have not been read, how many bytes each call of
`Write` gets out at most, and what has been written. -/
structure Conn where
  input : List UInt8
  plan : ℕ → ℕ
  sent : List Written := []

namespace Conn

/-- `io.ReadFull`, in any chunking; `none` is an error. -/
def readFull (c : Conn) (size : ℕ) : Option (List UInt8) × Conn :=
  if size ≤ c.input.length then
    (some (c.input.take size), { c with input := c.input.drop size })
  else (none, { c with input := [] })

/-- What the next call of `Write` gets out. -/
def wrote (c : Conn) (msg : List UInt8) : Written := ⟨msg, min (c.plan c.sent.length) msg.length⟩

/-- `Write`, and whether it returns no error. -/
def write (c : Conn) (msg : List UInt8) : Bool × Conn :=
  (decide (c.wrote msg).Complete, { c with sent := c.sent ++ [c.wrote msg] })

end Conn

/-! ### Messages -/

def socks5Version : UInt8 := 5

def authMethodNoAuth : UInt8 := 0

def authMethodNoAcceptable : UInt8 := 0xff

def addressIPv4 : UInt8 := 1

def addressDomainName : UInt8 := 3

def addressIPv6 : UInt8 := 4

def replyServerFailure : UInt8 := 1

/-- The message that selects a method. -/
def selection (method : UInt8) : List UInt8 := [socks5Version, method]

/-- The method has been selected, and the client can read it. -/
def Written.Selects (w : Written) (method : UInt8) : Prop := w.msg = selection method ∧ w.Complete

/-- The message of `sendReply`; `none` is an error. -/
def replyMessage (resp : UInt8) (addr : Option AddrSpec) : Option (List UInt8) := do
  let (addrType, addrBody, addrPort) ←
    match addr with
    | none => some (addressIPv4, [0, 0, 0, 0], 0)
    | some addr =>
      if addr.fqdn ≠ "" then
        let bytes := addr.fqdn.toUTF8.toList
        some (addressDomainName, UInt8.ofNat bytes.length :: bytes, addr.port)
      else if to4 addr.ip ≠ [] then some (addressIPv4, to4 addr.ip, addr.port)
      else if addr.ip.length = 16 then some (addressIPv6, addr.ip, addr.port)
      else none
  return [socks5Version, resp, 0, addrType] ++ addrBody ++
    [UInt8.ofNat (addrPort / 256), UInt8.ofNat addrPort]

def failureReply : List UInt8 := [5, 1, 0, 1, 0, 0, 0, 0, 0, 0]

lemma replyMessage_failure : replyMessage replyServerFailure none = some failureReply := rfl

/-- `sendReply`, and whether it returns no error. -/
def sendReply (c : Conn) (resp : UInt8) (addr : Option AddrSpec) : Bool × Conn :=
  match replyMessage resp addr with
  | none => (false, c)
  | some msg => c.write msg

/-! ### The two negotiations -/

/-- `socks5.ReadMethods`: the number of methods and as many methods. -/
def readMethods (c : Conn) : Option (List UInt8) × Conn :=
  match c.readFull 1 with
  | (some [n], c) => c.readFull n.toNat
  | (_, c) => (none, c)

/-- The type of an address, the address and a port. -/
def readAddrSpec (c : Conn) : Bool × Conn :=
  match c.readFull 1 with
  | (some [addrType], c) =>
    if addrType = addressIPv4 then (c.readFull (4 + 2)).map Option.isSome id
    else if addrType = addressIPv6 then (c.readFull (16 + 2)).map Option.isSome id
    else if addrType = addressDomainName then
      match c.readFull 1 with
      | (some [n], c) => (c.readFull (n.toNat + 2)).map Option.isSome id
      | (_, c) => (false, c)
    else (false, c)
  | (_, c) => (false, c)

/-- `socks5.NewRequest`, and whether it returns no error: version, command, a reserved byte and an
address. The request is not used. -/
def newRequest (c : Conn) : Bool × Conn :=
  match c.readFull 3 with
  | (some [version, _, _], c) => if version ≠ socks5Version then (false, c) else readAddrSpec c
  | (_, c) => (false, c)

inductive AuthErr
  | readVersion
  | unsupportedVersion (version : UInt8)
  | readMethods
  | noAuthNotSupported
  | write
  deriving DecidableEq

/-- `HandleLocalAuth`. -/
def handleLocalAuth (c : Conn) : Option AuthErr × Conn :=
  match c.readFull 1 with
  | (some [version], c) =>
    if version ≠ socks5Version then (some (.unsupportedVersion version), c)
    else
      match readMethods c with
      | (none, c) => (some .readMethods, c)
      | (some methods, c) =>
        if authMethodNoAuth ∉ methods then
          -- the error of the write is ignored
          (some .noAuthNotSupported, (c.write (selection authMethodNoAcceptable)).2)
        else
          match c.write (selection authMethodNoAuth) with
          | (true, c) => (none, c)
          | (false, c) => (some .write, c)
  | (_, c) => (some .readVersion, c)

/-- `SendServerFailureReply`; its error is ignored. -/
def sendServerFailureReply (c : Conn) : Conn :=
  match c.readFull 2 with
  | (some [_, n], c) =>
    match c.readFull n.toNat with
    | (none, c) => c
    | (some _, c) =>
      match c.write (selection authMethodNoAuth) with
      | (false, c) => c
      | (true, c) =>
        match newRequest c with
        | (false, c) => c
        | (true, c) => (sendReply c replyServerFailure none).2
  | (_, c) => c

/-! ### Serving a connection -/

/-- The protocols that are offered to the peer. -/
inductive Protocol
  | noAuthMethod
  | packetMethod
  deriving DecidableEq

/-- What becomes of the connection to the peer: whether it is made, and the protocol that is
negotiated on a new stream, unless that fails. -/
structure Link where
  connects : Bool
  stream : Option Protocol

inductive ProxyErr
  | noProxyPeer
  | peerNotAllowed (peerID : String)
  | connect
  | stream
  | auth (err : AuthErr)
  deriving DecidableEq

/-- `proxyConn`. What `handleStream` copies from the stream to the client is not written by the
node. -/
def proxyConn (conf : Config) (link : Link) (c : Conn) : Option ProxyErr × Conn :=
  let usePeerID := conf.socks5.usingPeerID
  if usePeerID = "" then (some .noProxyPeer, c)
  else
    match conf.getPeer usePeerID with
    | none => (some (.peerNotAllowed usePeerID), c)
    | some peer =>
      if !peer.allowedUsingAsExitNode then (some (.peerNotAllowed usePeerID), c)
      else if !link.connects then (some .connect, c)
      else
        match link.stream with
        | none => (some .stream, c)
        | some .noAuthMethod => (handleLocalAuth c).map (Option.map .auth) id
        | some .packetMethod => (none, c)

/-- What `ServeConns` does with a connection. -/
def serveConn (conf : Config) (link : Link) (c : Conn) : Conn :=
  match proxyConn conf link c with
  | (none, c) => c
  | (some _, c) => sendServerFailureReply c

/-! ### What is read and written -/

namespace Conn

variable (c : Conn) (size : ℕ)

lemma readFull_sent : (c.readFull size).2.sent = c.sent := by
  rw [readFull]
  split_ifs
  · rfl
  · rfl

variable {c size}

lemma sent_of_readFull {buf : Option (List UInt8)} {c' : Conn} (h : c.readFull size = (buf, c')) :
    c'.sent = c.sent := by
  rw [← c.readFull_sent size, h]

/-- A read that gets what it asks for. -/
lemma readFull_of_input {l rest : List UInt8} (h : c.input = l ++ rest) :
    c.readFull l.length = (some l, { c with input := rest }) := by
  simp [readFull, h]

end Conn

lemma readAddrSpec_sent (c : Conn) : (readAddrSpec c).2.sent = c.sent := by
  unfold readAddrSpec
  split
  · next addrType c' h =>
    have hread := Conn.sent_of_readFull h
    split_ifs
    · exact (c'.readFull_sent _).trans hread
    · exact (c'.readFull_sent _).trans hread
    · split
      · next n c'' h' =>
        exact (c''.readFull_sent _).trans ((Conn.sent_of_readFull h').trans hread)
      · next _ c'' h' =>
        exact (Conn.sent_of_readFull h').trans hread
    · exact hread
  · next _ c' h =>
    exact Conn.sent_of_readFull h

lemma newRequest_sent (c : Conn) : (newRequest c).2.sent = c.sent := by
  unfold newRequest
  split
  · next version _ _ c' h =>
    have hread := Conn.sent_of_readFull h
    split_ifs
    · exact hread
    · exact (readAddrSpec_sent c').trans hread
  · next _ c' h =>
    exact Conn.sent_of_readFull h

/-- The bytes begin with a version, a number of methods and as many methods. -/
def HasMethods (input : List UInt8) : Prop :=
  ∃ version n rest, input = version :: n :: rest ∧ n.toNat ≤ rest.length

/-- What is written in order to send a reply: a selection and, if the client can read it, the
reply. -/
def Replies (sent : List Written) : Prop :=
  sent = [] ∨ ∃ w replies, sent = w :: replies ∧ w.msg = selection authMethodNoAuth ∧
    (replies = [] ∨ w.Complete ∧ ∃ r, replies = [r] ∧ r.msg = failureReply)

/-- What is written once the methods have been read. -/
lemma sendServerFailureReply_of_methods {c : Conn} {version n : UInt8} {rest : List UInt8}
    (hinput : c.input = version :: n :: rest) (hn : n.toNat ≤ rest.length) :
    ∃ replies, (sendServerFailureReply c).sent =
        c.sent ++ c.wrote (selection authMethodNoAuth) :: replies ∧
      (replies = [] ∨ (c.wrote (selection authMethodNoAuth)).Complete ∧
        ∃ r, replies = [r] ∧ r.msg = failureReply) := by
  have hbegin : c.readFull 2 = (some [version, n], { c with input := rest }) :=
    Conn.readFull_of_input (l := [version, n]) hinput
  have hmethods : ({ c with input := rest } : Conn).readFull n.toNat =
      (some (rest.take n.toNat), { c with input := rest.drop n.toNat }) := if_pos hn
  set c' : Conn := { c with input := rest.drop n.toNat } with hc'
  have hwrote : c'.wrote = c.wrote := rfl
  simp only [sendServerFailureReply, hbegin, hmethods, Conn.write, hwrote]
  by_cases hok : (c.wrote (selection authMethodNoAuth)).Complete
  · rw [decide_eq_true hok]
    have hreq := newRequest_sent
      { c' with sent := c'.sent ++ [c.wrote (selection authMethodNoAuth)] }
    rcases hnew : newRequest { c' with sent := c'.sent ++ [c.wrote (selection authMethodNoAuth)] }
      with ⟨_ | _, c''⟩
    · rw [hnew] at hreq
      simp only [hnew]
      exact ⟨[], hreq, Or.inl rfl⟩
    · rw [hnew] at hreq
      simp only [hnew, sendReply, replyMessage_failure, Conn.write]
      refine ⟨[c''.wrote failureReply], ?_, Or.inr ⟨hok, _, rfl, rfl⟩⟩
      rw [hreq, List.append_assoc]
      rfl
  · rw [decide_eq_false hok]
    exact ⟨[], rfl, Or.inl rfl⟩

/-- Without a method list nothing is written. -/
lemma sendServerFailureReply_of_not {c : Conn} (h : ¬ HasMethods c.input) :
    (sendServerFailureReply c).sent = c.sent := by
  rcases hinput : c.input with _ | ⟨version, _ | ⟨n, rest⟩⟩
  · simp [sendServerFailureReply, Conn.readFull, hinput]
  · simp [sendServerFailureReply, Conn.readFull, hinput]
  · have hn : ¬ n.toNat ≤ rest.length := fun hn => h ⟨version, n, rest, hinput, hn⟩
    simp [sendServerFailureReply, Conn.readFull, hinput, hn]

/-- **What `SendServerFailureReply` writes.** -/
lemma sendServerFailureReply_sent (c : Conn) :
    ∃ sent, (sendServerFailureReply c).sent = c.sent ++ sent ∧ Replies sent ∧
      ((∃ w ∈ sent, w.Selects authMethodNoAuth) ↔
        HasMethods c.input ∧ (c.wrote (selection authMethodNoAuth)).Complete) := by
  by_cases h : HasMethods c.input
  · obtain ⟨version, n, rest, hinput, hn⟩ := id h
    obtain ⟨replies, hsent, hreplies⟩ := sendServerFailureReply_of_methods hinput hn
    refine ⟨_, hsent, Or.inr ⟨_, replies, rfl, rfl, hreplies⟩, ?_⟩
    rw [and_iff_right h]
    constructor
    · rintro ⟨w, hw, hselects⟩
      rcases List.mem_cons.1 hw with rfl | hw
      · exact hselects.2
      · rcases hreplies with rfl | ⟨hok, -⟩
        · cases hw
        · exact hok
    · exact fun hok => ⟨_, List.mem_cons_self, rfl, hok⟩
  · refine ⟨[], by rw [sendServerFailureReply_of_not h, List.append_nil], Or.inl rfl, ?_⟩
    exact iff_of_false (fun ⟨w, hw, _⟩ => List.not_mem_nil hw) fun hc => h hc.1

/-- The number of methods, the methods, and the bytes after them. -/
def MethodList (input methods rest : List UInt8) : Prop :=
  ∃ n, input = n :: (methods ++ rest) ∧ n.toNat = methods.length

lemma MethodList.unique {input methods rest methods' rest' : List UInt8}
    (h : MethodList input methods rest) (h' : MethodList input methods' rest') :
    methods = methods' ∧ rest = rest' := by
  obtain ⟨n, he, hlen⟩ := h
  obtain ⟨n', he', hlen'⟩ := h'
  obtain ⟨rfl, happ⟩ := List.cons.inj (he.symm.trans he')
  exact List.append_inj happ (hlen.symm.trans hlen')

/-- `ReadMethods` consumes the method list, if there is one. -/
lemma readMethods_cases (c : Conn) :
    (∃ c', readMethods c = (none, c') ∧ c'.sent = c.sent ∧
        ∀ methods rest, ¬ MethodList c.input methods rest) ∨
      ∃ methods rest, MethodList c.input methods rest ∧
        readMethods c = (some methods, { c with input := rest }) := by
  rcases hinput : c.input with _ | ⟨n, input⟩
  · refine Or.inl ⟨{ c with input := [] }, by simp [readMethods, Conn.readFull, hinput], rfl, ?_⟩
    rintro methods rest ⟨_, he, -⟩
    cases he
  have hbegin : c.readFull 1 = (some [n], { c with input := input }) :=
    Conn.readFull_of_input (l := [n]) hinput
  rw [readMethods, hbegin]
  by_cases hn : n.toNat ≤ input.length
  · refine Or.inr ⟨input.take n.toNat, input.drop n.toNat, ⟨n, ?_, ?_⟩, if_pos hn⟩
    · rw [List.take_append_drop]
    · rw [List.length_take_of_le hn]
  · refine Or.inl ⟨{ c with input := [] }, if_neg hn, rfl, ?_⟩
    rintro methods rest ⟨_, he, hlen⟩
    cases he
    exact hn (by rw [List.length_append]; omega)

/-- **What `HandleLocalAuth` does**: without a proper method list it writes nothing. -/
lemma handleLocalAuth_cases (c : Conn) :
    (∃ err c', handleLocalAuth c = (some err, c') ∧ c'.sent = c.sent ∧
        ∀ input methods rest, c.input = socks5Version :: input →
          ¬ MethodList input methods rest) ∨
      ∃ input methods rest, c.input = socks5Version :: input ∧ MethodList input methods rest ∧
        (authMethodNoAuth ∉ methods ∧ handleLocalAuth c = (some .noAuthNotSupported,
            { c with
              input := rest
              sent := c.sent ++ [c.wrote (selection authMethodNoAcceptable)] }) ∨
          authMethodNoAuth ∈ methods ∧ handleLocalAuth c =
            (if (c.wrote (selection authMethodNoAuth)).Complete then none else some .write,
            { c with
              input := rest
              sent := c.sent ++ [c.wrote (selection authMethodNoAuth)] })) := by
  rcases hinput : c.input with _ | ⟨version, input⟩
  · refine Or.inl ⟨.readVersion, { c with input := [] }, ?_, rfl, fun _ _ _ he => by cases he⟩
    simp [handleLocalAuth, Conn.readFull, hinput]
  have hbegin : c.readFull 1 = (some [version], { c with input := input }) :=
    Conn.readFull_of_input (l := [version]) hinput
  by_cases hversion : version = socks5Version
  swap
  · refine Or.inl ⟨.unsupportedVersion version, { c with input := input }, ?_, rfl, ?_⟩
    · simp [handleLocalAuth, hbegin, hversion]
    · intro _ _ _ he
      cases he
      exact absurd rfl hversion
  subst hversion
  rcases readMethods_cases { c with input := input } with
    ⟨c', hread, hsent, hnone⟩ | ⟨methods, rest, hlist, hread⟩
  · refine Or.inl ⟨.readMethods, c', by simp [handleLocalAuth, hbegin, hread], hsent, ?_⟩
    intro _ methods rest he
    cases he
    exact hnone methods rest
  · refine Or.inr ⟨input, methods, rest, rfl, hlist, ?_⟩
    by_cases hno : authMethodNoAuth ∈ methods
    · refine Or.inr ⟨hno, ?_⟩
      have hwrote : ({ c with input := rest } : Conn).wrote = c.wrote := rfl
      by_cases hok : (c.wrote (selection authMethodNoAuth)).Complete
      · simp [handleLocalAuth, hbegin, hread, hno, Conn.write, hwrote, hok]
      · simp [handleLocalAuth, hbegin, hread, hno, Conn.write, hwrote, hok]
    · refine Or.inl ⟨hno, ?_⟩
      simp [handleLocalAuth, hbegin, hread, hno, Conn.write, Conn.wrote]

/-! ### One negotiation -/

/-- There is a reply only after the method without authentication has been selected. -/
def ReplyFollows (sent : List Written) : Prop :=
  ∀ before w after, sent = before ++ w :: after → w.msg = failureReply →
    ∃ v ∈ before, v.Selects authMethodNoAuth

/-- What the node writes to a client is at most one negotiation. -/
structure OneNegotiation (sent : List Written) : Prop where
  /-- there is at most one selection of a method -/
  once : sent.Pairwise fun v w => ¬ ((∃ m, v.Selects m) ∧ ∃ m, w.Selects m)
  /-- no method is selected after none was acceptable -/
  order : sent.Pairwise fun v w => ¬ (v.Selects authMethodNoAcceptable ∧ w.Selects authMethodNoAuth)
  reply : ReplyFollows sent

lemma selection_ne_failureReply (m : UInt8) : selection m ≠ failureReply := by
  intro h
  cases congrArg List.length h

lemma not_selects_of_reply {w : Written} (h : w.msg = failureReply) (m : UInt8) : ¬ w.Selects m :=
  fun hs => selection_ne_failureReply m (hs.1.symm.trans h)

namespace ReplyFollows

lemma nil : ReplyFollows [] := fun _ _ _ he => by simp at he

variable {sent : List Written} {v : Written}

/-- A selection before it changes nothing. -/
lemma cons (h : ReplyFollows sent) {m : UInt8} (hv : v.msg = selection m) :
    ReplyFollows (v :: sent) := by
  rintro (_ | ⟨b, before⟩) w after he hw
  · cases he
    exact absurd (hv.symm.trans hw) (selection_ne_failureReply m)
  · obtain ⟨u, hu, hselects⟩ := h before w after (List.cons.inj he).2 hw
    exact ⟨u, List.mem_cons_of_mem _ hu, hselects⟩

/-- After the selection there may be anything. -/
lemma of_selects (hv : v.Selects authMethodNoAuth) : ReplyFollows (v :: sent) := by
  rintro (_ | ⟨b, before⟩) w after he hw
  · cases he
    exact absurd hv (not_selects_of_reply hw _)
  · obtain ⟨rfl, -⟩ := List.cons.inj he
    exact ⟨v, List.mem_cons_self, hv⟩

end ReplyFollows

namespace Replies

variable {sent : List Written}

/-- The only method that is selected. -/
lemma selects (h : Replies sent) {w : Written} (hw : w ∈ sent) {m : UInt8} (hm : w.Selects m) :
    w.Selects authMethodNoAuth := by
  rcases h with rfl | ⟨v, replies, rfl, hv, hreplies⟩
  · cases hw
  · rcases List.mem_cons.1 hw with rfl | hw
    · exact ⟨hv, hm.2⟩
    · rcases hreplies with rfl | ⟨-, r, rfl, hr⟩
      · cases hw
      · rw [List.mem_singleton.1 hw] at hm
        exact absurd hm (not_selects_of_reply hr m)

/-- A negotiation that ends with a reply is one negotiation. -/
lemma oneNegotiation (h : Replies sent) : OneNegotiation sent := by
  rcases h with rfl | ⟨w, replies, rfl, hw, rfl | ⟨hok, r, rfl, hr⟩⟩
  · exact ⟨List.Pairwise.nil, List.Pairwise.nil, ReplyFollows.nil⟩
  · exact ⟨List.pairwise_singleton _ _, List.pairwise_singleton _ _, ReplyFollows.nil.cons hw⟩
  · have hnot : ∀ m, ¬ r.Selects m := not_selects_of_reply hr
    refine ⟨List.pairwise_pair.2 ?_, List.pairwise_pair.2 ?_, ReplyFollows.of_selects ⟨hw, hok⟩⟩
    · rintro ⟨-, m, hm⟩
      exact hnot m hm
    · rintro ⟨-, hm⟩
      exact hnot _ hm

end Replies

/-- After a selection that the client can read there must be no other. -/
lemma oneNegotiation_cons_iff {v : Written} {m : UInt8} (hv : v.msg = selection m)
    {sent : List Written} (h : Replies sent) :
    OneNegotiation (v :: sent) ↔ ¬ (v.Complete ∧ ∃ w ∈ sent, w.Selects authMethodNoAuth) := by
  have hsent := h.oneNegotiation
  constructor
  · rintro hone ⟨hok, w, hw, hselects⟩
    exact (List.pairwise_cons.1 hone.once).1 w hw ⟨⟨m, hv, hok⟩, _, hselects⟩
  · intro hnot
    refine ⟨List.pairwise_cons.2 ⟨?_, hsent.once⟩, List.pairwise_cons.2 ⟨?_, hsent.order⟩, ?_⟩
    · rintro w hw ⟨⟨_, hv'⟩, _, hw'⟩
      exact hnot ⟨hv'.2, w, hw, h.selects hw hw'⟩
    · rintro w hw ⟨hv', hw'⟩
      exact hnot ⟨hv'.2, w, hw, hw'⟩
    · exact hsent.reply.cons hv

/-! ### The theorem -/

/-- The method is negotiated by `HandleLocalAuth`. -/
structure NegotiatesLocally (conf : Config) (link : Link) : Prop where
  peerID : conf.socks5.usingPeerID ≠ ""
  allowed : ∃ peer, conf.getPeer conf.socks5.usingPeerID = some peer ∧
    peer.allowedUsingAsExitNode = true
  connects : link.connects = true
  stream : link.stream = some .noAuthMethod

/-- The outcomes of `proxyConn`: in all others nothing is read or written. -/
lemma proxyConn_cases (conf : Config) (link : Link) (c : Conn) :
    NegotiatesLocally conf link ∧
        proxyConn conf link c = (handleLocalAuth c).map (Option.map .auth) id ∨
      ¬ NegotiatesLocally conf link ∧ ∃ err, proxyConn conf link c = (err, c) := by
  by_cases h : NegotiatesLocally conf link
  · obtain ⟨hid, ⟨peer, hpeer, hallowed⟩, hconnects, hstream⟩ := id h
    exact Or.inl ⟨h, by simp [proxyConn, hid, hpeer, hallowed, hconnects, hstream]⟩
  · refine Or.inr ⟨h, ?_⟩
    rw [proxyConn]
    by_cases hid : conf.socks5.usingPeerID = ""
    · exact ⟨_, if_pos hid⟩
    rw [if_neg hid]
    rcases hpeer : conf.getPeer conf.socks5.usingPeerID with _ | peer
    · exact ⟨_, rfl⟩
    rcases hallowed : peer.allowedUsingAsExitNode
    · exact ⟨_, if_pos (by rw [hallowed]; rfl)⟩
    rcases hconnects : link.connects
    · exact ⟨some .connect, by simp [hallowed]⟩
    rcases hstream : link.stream with _ | _ | _
    · exact ⟨some .stream, by simp [hallowed]⟩
    · exact absurd ⟨hid, ⟨peer, hpeer, hallowed⟩, hconnects, hstream⟩ h
    · exact ⟨none, by simp [hallowed]⟩

/-- The methods of the client do not include the one without authentication; it is told so, and
sends bytes that can be taken for another method list. -/
def OffersAgain (c : Conn) : Prop :=
  ∃ input methods rest, c.input = socks5Version :: input ∧ MethodList input methods rest ∧
    authMethodNoAuth ∉ methods ∧ HasMethods rest ∧ 2 ≤ c.plan 0 ∧ 2 ≤ c.plan 1

lemma offersAgain_iff {c : Conn} {input methods rest : List UInt8}
    (hinput : c.input = socks5Version :: input) (hlist : MethodList input methods rest) :
    OffersAgain c ↔
      authMethodNoAuth ∉ methods ∧ HasMethods rest ∧ 2 ≤ c.plan 0 ∧ 2 ≤ c.plan 1 := by
  constructor
  · rintro ⟨input', methods', rest', hinput', hlist', hagain⟩
    cases (List.cons.inj (hinput.symm.trans hinput')).2
    obtain ⟨rfl, rfl⟩ := hlist.unique hlist'
    exact hagain
  · exact fun hagain => ⟨input, methods, rest, hinput, hlist, hagain⟩

lemma wrote_selection_complete_iff (c : Conn) (m : UInt8) :
    (c.wrote (selection m)).Complete ↔ 2 ≤ c.plan c.sent.length := min_eq_right_iff

/-- What is written to a client after a selection. -/
lemma oneNegotiation_after_iff {c : Conn} {v : Written} (hc : c.sent = [v]) {m : UInt8}
    (hv : v.msg = selection m) :
    OneNegotiation (sendServerFailureReply c).sent ↔
      ¬ (v.Complete ∧ HasMethods c.input ∧ 2 ≤ c.plan 1) := by
  obtain ⟨sent, hsent, hreplies, hselects⟩ := sendServerFailureReply_sent c
  rw [hsent, hc, List.singleton_append, oneNegotiation_cons_iff hv hreplies, hselects,
    wrote_selection_complete_iff, hc, List.length_singleton]

/-- The connections on which `HandleLocalAuth` negotiates. -/
lemma handleLocalAuth_oneNegotiation_iff {c : Conn} (hc : c.sent = []) :
    OneNegotiation (match (handleLocalAuth c).map (Option.map ProxyErr.auth) id with
      | (none, c) => c
      | (some _, c) => sendServerFailureReply c).sent ↔ ¬ OffersAgain c := by
  rcases handleLocalAuth_cases c with ⟨err, c', hauth, hsent', hnone⟩ |
    ⟨input, methods, rest, hinput, hlist, ⟨hno, hauth⟩ | ⟨hno, hauth⟩⟩
  · -- nothing has been written
    refine iff_of_true ?_ ?_
    · rw [hauth]
      obtain ⟨sent, hsent, hreplies, -⟩ := sendServerFailureReply_sent c'
      rw [hsent', hc, List.nil_append] at hsent
      exact hsent ▸ hreplies.oneNegotiation
    · rintro ⟨input, methods, rest, hinput, hlist, -⟩
      exact hnone input methods rest hinput hlist
  · -- the client is refused
    have hc0 : c.sent.length = 0 := by rw [hc]; rfl
    rw [hauth, hc, List.nil_append, offersAgain_iff hinput hlist, and_iff_right hno]
    refine (oneNegotiation_after_iff rfl rfl).trans (not_congr ?_)
    rw [wrote_selection_complete_iff, hc0]
    exact and_left_comm
  · -- the client is not refused
    refine iff_of_true ?_ fun hagain => ((offersAgain_iff hinput hlist).1 hagain).1 hno
    rw [hauth, hc, List.nil_append]
    by_cases hok : (c.wrote (selection authMethodNoAuth)).Complete
    · rw [if_pos hok]
      exact Replies.oneNegotiation (Or.inr ⟨_, [], rfl, rfl, Or.inl rfl⟩)
    · rw [if_neg hok]
      exact (oneNegotiation_after_iff rfl rfl).2 fun h => hok h.1

/-- **There is one negotiation on a connection** exactly if it is not the case that the client is
refused by `HandleLocalAuth` and goes on as if it was not. -/
theorem serveConn_oneNegotiation_iff (conf : Config) (link : Link) (input : List UInt8)
    (plan : ℕ → ℕ) :
    OneNegotiation (serveConn conf link { input := input, plan := plan }).sent ↔
      ¬ (NegotiatesLocally conf link ∧ OffersAgain { input := input, plan := plan }) := by
  set c : Conn := { input := input, plan := plan } with hc
  rcases proxyConn_cases conf link c with ⟨hlocal, hproxy⟩ | ⟨hnot, err, hproxy⟩
  · rw [serveConn, hproxy, and_iff_right hlocal]
    exact handleLocalAuth_oneNegotiation_iff rfl
  · refine iff_of_true ?_ fun h => hnot h.1
    rw [serveConn, hproxy]
    rcases err with _ | err
    · exact Replies.oneNegotiation (Or.inl rfl)
    · obtain ⟨sent, hsent, hreplies, -⟩ := sendServerFailureReply_sent c
      rw [hsent, hc, List.nil_append]
      exact hreplies.oneNegotiation

/-- A node that uses a peer as its exit node. -/
def proxiedConf : Config where
  socks5 := { usingPeerID := BootstrapPeer.rus2.text }
  knownPeers := Finmap.singleton BootstrapPeer.rus2.text
    { peerID := BootstrapPeer.rus2.text, allowedUsingAsExitNode := true }

/-- The connection of a client that offers only a password, and goes on at once. -/
def passwordClient : Conn where
  input := [5, 1, 2, 1, 0]
  plan := fun _ => 10

/-- No method is acceptable, and then the one without authentication is selected. -/
theorem passwordClient_selectedTwice :
    (serveConn proxiedConf { connects := true, stream := some .noAuthMethod }
        passwordClient).sent =
      [⟨selection authMethodNoAcceptable, 2⟩, ⟨selection authMethodNoAuth, 2⟩] ∧
    ¬ OneNegotiation [⟨selection authMethodNoAcceptable, 2⟩, ⟨selection authMethodNoAuth, 2⟩] := by
  refine ⟨by decide, fun h => ?_⟩
  exact List.pairwise_pair.1 h.order ⟨⟨rfl, rfl⟩, rfl, rfl⟩

end Socks5

end Awl
