import Mathlib
import Minister.Codec.Double
import Minister.Nullifier.Issuance
import Minister.Vc.IssuanceMonth

/-!
# The account plugins

The seven plugins that attest control of an account at another provider: GitHub,
Google, Hacker News, Instagram, Reddit, Steam and YouTube. Each reads a profile from
its provider and derives an `oauth-account` badge from it, and some derive an
`account-age` or a `social-following` badge as well. All badges of one profile carry
the same Sybil anchor, which is the provider's immutable id of the account.

A profile is what the plugin's schema lets through, so its fields carry the checks of
that schema. The requests that fetch it, and the proof that the user controls the
account, come before and are not modelled.
-/

namespace Minister.Plugins

open Codec (IsDouble numberString numberString_inj)
open Issuance (IssuedBadge)

/-! ### Numbers and dates -/

/-- The calendar fields of a `Date`, in the time zone of the server. -/
structure CalendarDate where
  fullYear : Int
  month : Int
  date : Int
  deriving DecidableEq, Repr

/-- The fields of a day counted from the start of 1970. -/
def calendarDate (day : Int) : CalendarDate where
  fullYear := (Vc.yearMonth day).year
  month := (Vc.yearMonth day).month - 1
  date := day - Vc.firstDay (Vc.yearMonth day) + 1

/-- The milliseconds of a day. -/
def dayMs : Int := 86400000

/-- A time zone: what its clocks are ahead of UTC at an instant, in milliseconds. -/
structure Zone where
  offset : Timestamp → Int
  offset_lt : ∀ t, |offset t| < dayMs

/-- What the clocks show, in milliseconds from the start of 1970. -/
def Zone.localMs (z : Zone) (t : Timestamp) : Int := t + z.offset t

/-- `getFullYear`, `getMonth` and `getDate`. -/
def Zone.date (z : Zone) (t : Timestamp) : CalendarDate := calendarDate (z.localMs t / dayMs)

/-- A number as `JSON.parse` returns it: a literal too large for a double is read as
an infinite one. -/
inductive JsNumber
  | finite (value : Rat)
  | infinite
  deriving DecidableEq, Repr

/-- What the plugins use of the JavaScript runtime. -/
structure Runtime where
  /-- `new Date(text)`, if that is a valid date. -/
  parseDate : String → Option Timestamp
  zone : Zone

/-- Whole calendar months between two dates, never negative. -/
def monthsBetween (start stop : CalendarDate) : Int :=
  let months := (stop.fullYear - start.fullYear) * 12 + (stop.month - start.month)
  max 0 (if stop.date < start.date then months - 1 else months)

/-- The last of the buckets that the value reaches. -/
def highestBucket (value : Int) (buckets : List Int) : Option Int :=
  buckets.foldl (fun best b => if b ≤ value then some b else best) none

/-- `ACCOUNT_AGE_MONTHS`. -/
def accountAgeMonths : List Int := [12, 24, 36, 60]

/-- `FOLLOWERS_BUCKETS`. -/
def followersBuckets : List Int := [10, 50, 100, 500, 1000]

def dateFromUnixSeconds : JsNumber → Option Timestamp
  | .infinite => none
  | .finite seconds => Vc.dateOfSeconds (.fin seconds)

/-! ### Claims -/

/-- `OAUTH_PROVIDERS`. -/
inductive OAuthProvider
  | github | google | discord | reddit | steam | hackernews | instagram | youtube
  deriving DecidableEq, Repr

def OAuthProvider.slug : OAuthProvider → String
  | .github => "github"
  | .google => "google"
  | .discord => "discord"
  | .reddit => "reddit"
  | .steam => "steam"
  | .hackernews => "hackernews"
  | .instagram => "instagram"
  | .youtube => "youtube"

/-- What a badge says. The attributes of these badges are their claims. -/
inductive Claims
  | oauthAccount (provider : OAuthProvider) (handle : Option String)
  | accountAge (provider : OAuthProvider) (olderThanMonths : Int)
  | socialFollowing (provider : OAuthProvider) (followersAtLeast : Int)
  deriving DecidableEq, Repr

def Claims.type : Claims → String
  | .oauthAccount .. => "oauth-account"
  | .accountAge .. => "account-age"
  | .socialFollowing .. => "social-following"

def Claims.provider : Claims → OAuthProvider
  | .oauthAccount p _ => p
  | .accountAge p _ => p
  | .socialFollowing p _ => p

/-- The `provider` key is exempt, and a number is not a string. -/
def Claims.anchorAppearsAsValue (anchor : String) : Claims → Bool
  | .oauthAccount _ handle => handle = some anchor
  | .accountAge _ _ => false
  | .socialFollowing _ _ => false

/-- A badge as a plugin derives it. -/
structure DerivedBadge where
  claims : Claims
  sybilAnchor : String
  revealsAnchor : Bool := false
  deriving DecidableEq, Repr

/-- What the wizard looks at. -/
def DerivedBadge.issued (b : DerivedBadge) : IssuedBadge where
  type := b.claims.type
  sybilAnchor := some b.sybilAnchor
  showsAnchor := b.claims.anchorAppearsAsValue b.sybilAnchor
  revealsAnchor := b.revealsAnchor
  provider := some b.claims.provider.slug

/-- A handle that is empty is not claimed. -/
def claimedHandle (handle : Option String) : Option String := handle.filter (· ≠ "")

def accountAgeBadge (rt : Runtime) (provider : OAuthProvider) (created : Option Timestamp)
    (anchor : String) (now : Timestamp) : Option DerivedBadge :=
  match created with
  | none => none
  | some created =>
    match highestBucket (monthsBetween (rt.zone.date created) (rt.zone.date now))
        accountAgeMonths with
    | none => none
    | some bucket => some { claims := .accountAge provider bucket, sybilAnchor := anchor }

/-! ### Profiles -/

/-- GitHub's `/user`. -/
structure GithubUser where
  id : ℤ
  login : String
  createdAt : Option String := none
  followers : Option Nat := none
  id_double : IsDouble id
  login_ne : login ≠ "" := by decide
  createdAt_ne : createdAt ≠ some "" := by decide

/-- The plugin has its own copy of what `accountAgeBadge` does. -/
def buildGithubBadges (rt : Runtime) (facts : GithubUser) (now : Timestamp) :
    List DerivedBadge :=
  let sybilAnchor := numberString facts.id
  [{ claims := .oauthAccount .github (some facts.login), sybilAnchor }] ++
    (accountAgeBadge rt .github (facts.createdAt.bind rt.parseDate) sybilAnchor now).toList ++
    (match facts.followers with
      | none => []
      | some followers =>
        match highestBucket followers followersBuckets with
        | none => []
        | some bucket => [{ claims := .socialFollowing .github bucket, sybilAnchor }])

/-- Reddit's `/api/v1/me`. -/
structure RedditUser where
  id : String
  name : String
  createdUtc : Option JsNumber := none
  id_ne : id ≠ "" := by decide
  name_ne : name ≠ "" := by decide

def redditFullname (id : String) : String := "t2_" ++ id

def buildRedditBadges (rt : Runtime) (facts : RedditUser) (now : Timestamp) :
    List DerivedBadge :=
  let anchor := redditFullname facts.id
  [{ claims := .oauthAccount .reddit (some facts.name), sybilAnchor := anchor }] ++
    (accountAgeBadge rt .reddit (facts.createdUtc.bind dateFromUnixSeconds) anchor now).toList

/-- A Hacker News user whose `about` text holds the challenge token. -/
structure HnUser where
  id : String
  created : Option JsNumber := none
  id_ne : id ≠ "" := by decide

/-- The name of a Hacker News account is both its anchor and its handle. -/
def buildHackerNewsBadges (rt : Runtime) (facts : HnUser) (now : Timestamp) :
    List DerivedBadge :=
  let anchor := facts.id
  [⟨.oauthAccount .hackernews (some facts.id), anchor, true⟩] ++
    (accountAgeBadge rt .hackernews (facts.created.bind dateFromUnixSeconds) anchor now).toList

/-- Google's userinfo. -/
structure GoogleUserinfo where
  sub : String
  email : Option String := none
  emailVerified : Option Bool := none
  sub_ne : sub ≠ "" := by decide

/-- The last step of the Google plugin. Only a verified address is claimed. -/
def googleBadges (info : GoogleUserinfo) : List DerivedBadge :=
  let handle := if info.emailVerified = some true then claimedHandle info.email else none
  [{ claims := .oauthAccount .google handle, sybilAnchor := info.sub }]

/-- `https://steamcommunity.com/openid/id/`. -/
def claimedIdStart : String := "https://steamcommunity.com/openid/id/"

/-- The capture of `CLAIMED_ID_RE`: seventeen digits after the fixed host and path. -/
def parseSteamId (claimedId : String) : Option String :=
  let id := claimedId.toList.drop claimedIdStart.length
  if claimedIdStart.toList.isPrefixOf claimedId.toList ∧ id.length = 17 ∧
      id.all (fun c => '0' ≤ c ∧ c ≤ '9') then some (String.ofList id)
  else none

/-- An assertion Steam has confirmed, with the persona if it could be fetched. -/
structure SteamAssertion where
  claimedId : String
  steamId : String
  persona : Option String := none
  parsed : parseSteamId claimedId = some steamId

def steamBadges (assertion : SteamAssertion) : List DerivedBadge :=
  [{ claims := .oauthAccount .steam (claimedHandle assertion.persona)
     sybilAnchor := assertion.steamId }]

/-- The first item of YouTube's channel list, with the fields of its snippet. -/
structure YoutubeChannel where
  id : String
  title : Option String := none
  customUrl : Option String := none
  id_ne : id ≠ "" := by decide

def youtubeBadges (channel : YoutubeChannel) : List DerivedBadge :=
  [{ claims := .oauthAccount .youtube (claimedHandle (channel.customUrl <|> channel.title))
     sybilAnchor := channel.id }]

/-- An Instagram account linked to a page the user administers. -/
structure InstagramAccount where
  id : String
  username : Option String := none
  id_ne : id ≠ "" := by decide

def instagramBadges (ig : InstagramAccount) : List DerivedBadge :=
  [{ claims := .oauthAccount .instagram (claimedHandle ig.username), sybilAnchor := ig.id }]

/-- A profile that one of the plugins accepted. -/
inductive Account
  | github (facts : GithubUser)
  | reddit (facts : RedditUser)
  | hackernews (facts : HnUser)
  | google (info : GoogleUserinfo)
  | steam (assertion : SteamAssertion)
  | youtube (channel : YoutubeChannel)
  | instagram (ig : InstagramAccount)

namespace Account

/-- The provider's id of an account: a number at GitHub, a string elsewhere. -/
inductive Id
  | number (n : ℤ)
  | text (s : String)
  deriving DecidableEq, Repr

def provider : Account → OAuthProvider
  | github _ => .github
  | reddit _ => .reddit
  | hackernews _ => .hackernews
  | google _ => .google
  | steam _ => .steam
  | youtube _ => .youtube
  | instagram _ => .instagram

def accountId : Account → Id
  | github facts => .number facts.id
  | reddit facts => .text facts.id
  | hackernews facts => .text facts.id
  | google info => .text info.sub
  | steam assertion => .text assertion.steamId
  | youtube channel => .text channel.id
  | instagram ig => .text ig.id

/-- When the account was created, if the profile has a valid date. -/
def created (rt : Runtime) : Account → Option Timestamp
  | github facts => facts.createdAt.bind rt.parseDate
  | reddit facts => facts.createdUtc.bind dateFromUnixSeconds
  | hackernews facts => facts.created.bind dateFromUnixSeconds
  | google _ | steam _ | youtube _ | instagram _ => none

/-- The badges that the plugin derives. -/
def derived (rt : Runtime) (now : Timestamp) : Account → List DerivedBadge
  | github facts => buildGithubBadges rt facts now
  | reddit facts => buildRedditBadges rt facts now
  | hackernews facts => buildHackerNewsBadges rt facts now
  | google info => googleBadges info
  | steam assertion => steamBadges assertion
  | youtube channel => youtubeBadges channel
  | instagram ig => instagramBadges ig

/-- The badges that the wizard is asked to issue. -/
def badges (rt : Runtime) (now : Timestamp) (a : Account) : List IssuedBadge :=
  (a.derived rt now).map DerivedBadge.issued

/-- How an id is written as an anchor: as `String` writes the number at GitHub, with a prefix
at Reddit, and as it is elsewhere. -/
def anchor : Account → String
  | github facts => numberString facts.id
  | reddit facts => redditFullname facts.id
  | hackernews facts => facts.id
  | google info => info.sub
  | steam assertion => assertion.steamId
  | youtube channel => channel.id
  | instagram ig => ig.id

end Account

/-! ### Badges and anchors -/

section Badges

variable {rt : Runtime} {now : Timestamp} {a a' : Account} {b : DerivedBadge}

/-- What a badge says about the age of an account that was created at this instant. -/
def ClaimsAge (rt : Runtime) (created : Option Timestamp) (now : Timestamp) (claims : Claims) :
    Prop :=
  ∀ provider bucket, claims = .accountAge provider bucket → ∃ t, created = some t ∧
    highestBucket (monthsBetween (rt.zone.date t) (rt.zone.date now)) accountAgeMonths = some bucket

theorem accountAgeBadge_eq_some {provider : OAuthProvider} {created : Option Timestamp}
    {anchor : String} (h : accountAgeBadge rt provider created anchor now = some b) :
    b.sybilAnchor = anchor ∧ ClaimsAge rt created now b.claims := by
  unfold accountAgeBadge at h
  split at h
  · cases h
  · split at h
    · cases h
    · cases h
      exact ⟨rfl, by rintro _ _ ⟨⟩; exact ⟨_, rfl, ‹_›⟩⟩

/-- Every badge of an account carries the account's anchor, and the age is from its creation. -/
theorem mem_derived (hb : b ∈ a.derived rt now) :
    b.sybilAnchor = a.anchor ∧ ClaimsAge rt (a.created rt) now b.claims := by
  cases a with
  | github facts =>
    simp only [Account.derived, buildGithubBadges, List.mem_append, List.mem_singleton,
      Option.mem_toList] at hb
    rcases hb with (rfl | hage) | hfollowing
    · exact ⟨rfl, nofun⟩
    · exact accountAgeBadge_eq_some hage
    · split at hfollowing
      · cases hfollowing
      · split at hfollowing
        · cases hfollowing
        · obtain rfl := List.mem_singleton.mp hfollowing
          exact ⟨rfl, nofun⟩
  | reddit facts =>
    simp only [Account.derived, buildRedditBadges, List.mem_append, List.mem_singleton,
      Option.mem_toList] at hb
    rcases hb with rfl | hage
    · exact ⟨rfl, nofun⟩
    · exact accountAgeBadge_eq_some hage
  | hackernews facts =>
    simp only [Account.derived, buildHackerNewsBadges, List.mem_append, List.mem_singleton,
      Option.mem_toList] at hb
    rcases hb with rfl | hage
    · exact ⟨rfl, nofun⟩
    · exact accountAgeBadge_eq_some hage
  | google | steam | youtube | instagram =>
    obtain rfl := List.mem_singleton.mp hb
    exact ⟨rfl, nofun⟩

theorem sybilAnchor_of_mem_badges {b : IssuedBadge} (hb : b ∈ a.badges rt now) :
    b.sybilAnchor = some a.anchor := by
  obtain ⟨b, hderived, rfl⟩ := List.mem_map.mp hb
  exact congrArg some (mem_derived hderived).1

/-- Every account yields an `oauth-account` badge. -/
theorem exists_oauthAccount (rt : Runtime) (now : Timestamp) (a : Account) :
    ∃ b ∈ a.badges rt now, b.type = "oauth-account" := by
  cases a with
  | github | reddit | hackernews | google | steam | youtube | instagram =>
    exact ⟨_, List.mem_cons_self, rfl⟩

theorem redditFullname_injective : Function.Injective redditFullname := by
  intro id id' h
  have hlist := congrArg String.toList h
  simp only [redditFullname, String.toList_append] at hlist
  exact String.toList_inj.mp (List.append_cancel_left hlist)

/-- Within one provider, the anchor determines the account. -/
theorem accountId_eq_of_anchor_eq (hp : a.provider = a'.provider)
    (h : a.anchor = a'.anchor) : a.accountId = a'.accountId := by
  -- Accounts of different providers are no case.
  cases a <;> cases a' <;> cases hp
  case github.github facts facts' =>
    exact congrArg Account.Id.number (numberString_inj facts.id_double facts'.id_double h)
  case reddit.reddit => exact congrArg Account.Id.text (redditFullname_injective h)
  all_goals exact congrArg Account.Id.text h

end Badges

end Minister.Plugins
