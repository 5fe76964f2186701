import Minister.Oidc.Consent

/-!
# The address a limit counts

Limits count per client address, and `clientIpFrom` reads that address from the headers. Behind
trusted proxies it takes the entry of `X-Forwarded-For` that the outermost of them wrote. What the
client sent stands to the left of it and cannot move it.
-/

namespace Minister.ClientIp

open Oidc (isJsSpace trim)

/-- Header values, by their characters. -/
abbrev Text := List Char

structure Env where
  /-- `MINISTER_CLIENT_IP_HEADER`. -/
  clientIpHeader : Option String
  /-- `MINISTER_TRUSTED_PROXY_HOPS`. -/
  trustedProxyHops : Option Text

/-- `Number.parseInt(raw, 10)`, unless it is `NaN` or infinite. -/
def parseInt (raw : Text) : Option Int :=
  let text := raw.dropWhile isJsSpace
  let unsigned := if text.head? = some '-' ∨ text.head? = some '+' then text.tail else text
  let digits := unsigned.takeWhile Char.isDigit
  let value := Nat.ofDigitChars 10 digits 0
  -- from here on the nearest double is infinite
  if digits = [] ∨ 2 ^ 1024 - 2 ^ 970 ≤ value then none
  else some (if text.head? = some '-' then -value else value)

def trustedProxyHops (env : Env) : Nat :=
  match env.trustedProxyHops.bind parseInt with
  | some n => n.toNat
  | none => 0

/-- The entries of a list that are not blank. -/
def parts (xff : Text) : List Text := ((xff.splitOn ',').map trim).filter (· ≠ [])

def clientIpFrom (env : Env) (headers : String → Option Text) : Text :=
  let trustedHeader := env.clientIpHeader.getD "cf-connecting-ip"
  let value := if trustedHeader = "" then [] else trim ((headers trustedHeader).getD [])
  if value ≠ [] then value
  else
    let hops := trustedProxyHops env
    let parts := parts ((headers "x-forwarded-for").getD [])
    -- without a hop or an entry there is nothing at the place
    if hops = 0 then "unknown".toList
    else parts.getD (parts.length - hops) "unknown".toList

/-! ### What proxies write -/

/-- An entry as a proxy writes it: an address without commas or blanks around it, after the blanks
that the proxy puts between a comma and the entry. -/
structure Entry where
  gap : Text
  address : Text
  blank : ∀ c ∈ gap, isJsSpace c = true
  nonempty : address ≠ []
  noComma : ',' ∉ address
  trimmed : trim address = address

/-- A proxy appends the entry of its peer to what it received, or sends it alone. -/
def Entry.append (received : Option Text) (e : Entry) : Option Text :=
  match received with
  | none => some e.address
  | some value => some (value ++ ',' :: (e.gap ++ e.address))

/-- The header that arrives, after the proxies from the outermost on. -/
def forwarded (sent : Option Text) (proxies : List Entry) : Option Text :=
  proxies.foldl Entry.append sent

section Entries

variable {e : Entry}

theorem parts_address : parts e.address = [e.address] := by
  rw [parts, List.splitOn_eq_singleton e.noComma]
  simp [e.trimmed, e.nonempty]

theorem parts_append (value : Text) :
    parts (value ++ ',' :: (e.gap ++ e.address)) = parts value ++ [e.address] := by
  have hgap : ',' ∉ e.gap ++ e.address := by
    intro hmem
    rcases List.mem_append.mp hmem with hblank | haddress
    · exact absurd (e.blank _ hblank) (by decide)
    · exact e.noComma haddress
  have htrim : trim (e.gap ++ e.address) = e.address := by
    rw [trim, List.dropWhile_append_of_pos e.blank]
    exact e.trimmed
  rw [parts, List.splitOn_append_cons_self, List.splitOn_eq_singleton hgap]
  simp [parts, htrim, e.nonempty]

/-- The entries of the proxies come after what the client sent. -/
theorem parts_forwarded (sent : Option Text) (proxies : List Entry) :
    parts ((forwarded sent proxies).getD []) =
      parts (sent.getD []) ++ proxies.map Entry.address := by
  induction proxies generalizing sent with
  | nil => simp [forwarded]
  | cons e proxies ih =>
    have hone : parts ((e.append sent).getD []) = parts (sent.getD []) ++ [e.address] := by
      cases sent with
      | none => exact parts_address
      | some value => exact parts_append value
    change parts ((forwarded (e.append sent) proxies).getD []) = _
    rw [ih, hone, List.map_cons, List.append_assoc, List.singleton_append]

end Entries

/-- With header trust disabled and as many hops as there are trusted proxies, at least one, the
address is the entry of the outermost proxy, whatever header the client sends. -/
theorem clientIpFrom_forwarded {env : Env} {headers : String → Option Text} {sent : Option Text}
    {outermost : Entry} {others : List Entry} (hheader : env.clientIpHeader = some "")
    (hhops : trustedProxyHops env = (outermost :: others).length)
    (hxff : headers "x-forwarded-for" = forwarded sent (outermost :: others)) :
    clientIpFrom env headers = outermost.address := by
  have hparts := parts_forwarded sent (outermost :: others)
  have hpositive : (outermost :: others).length ≠ 0 := nofun
  simp only [clientIpFrom, hheader, Option.getD_some, if_true, ne_eq, not_true_eq_false, if_false,
    hhops, hpositive, hxff, hparts, List.length_append, List.length_map, Nat.add_sub_cancel]
  simp [List.getD_eq_getElem?_getD]

/-- The entry that a proxy writes for the peer `10.0.0.7`. -/
def peerEntry : Entry where
  gap := [' ']
  address := "10.0.0.7".toList
  blank := List.forall_mem_singleton.mpr rfl
  nonempty := by simp
  noComma := by decide
  trimmed := by decide

/-- A client that sends a list of its own is counted under its address. -/
theorem clientIpFrom_spoofed :
    clientIpFrom ⟨some "", some "1".toList⟩ (fun _ => some "6.6.6.6,, , 10.0.0.7".toList) =
      "10.0.0.7".toList := by
  have hhops : trustedProxyHops ⟨some "", some "1".toList⟩ = [peerEntry].length := by
    decide +kernel
  have hxff : some "6.6.6.6,, , 10.0.0.7".toList =
      forwarded (some "6.6.6.6,, ".toList) [peerEntry] := by decide
  exact clientIpFrom_forwarded rfl hhops hxff

end Minister.ClientIp
