import SignedConsole.Proofs.Transmission
import SignedConsole.Proofs.UrlPaths

namespace SignedConsole

/-- The header for whoever the base of all addresses names. -/
def Client.basic (c : Client) : Headers :=
  ((Url.parse? (c.baseUrl ++ "/")).map Url.basic).getD []

/-- There is no such header exactly if the base names nobody. -/
theorem Client.basic_eq_nil_iff (c : Client) :
    c.basic = [] ↔ ∀ base, Url.parse? (c.baseUrl ++ "/") = some base → base.user = none := by
  unfold basic
  cases Url.parse? (c.baseUrl ++ "/") with
  | none => simp
  | some base => simp [Url.basic]

theorem Client.basic_own (c : Client) : c.basic.own = [] := by
  unfold basic
  cases Url.parse? (c.baseUrl ++ "/") with
  | none => rfl
  | some base => exact base.basic_own

theorem Client.basic_authorization (c : Client) : c.basic.authorization = c.basic := by
  unfold basic
  cases Url.parse? (c.baseUrl ++ "/") with
  | none => rfl
  | some base => exact base.basic_authorization

namespace Url

/-- Where there is no at sign, nobody is named. -/
theorem userInfo_of_plain {cs : List Char} (h : '@' ∉ cs) : userInfo? (credentials cs) = none := by
  have hplain : ∀ c ∈ cs, (c == '@') = false := fun c hc =>
    beq_eq_false_iff_ne.mpr fun he => h (he ▸ hc)
  have hafter : afterCredentials cs = cs := by
    rw [afterCredentials, Text.splitWith_none hplain]
    rfl
  rw [credentials, hafter, Nat.sub_self, Nat.zero_sub, List.take_zero]
  decide +kernel

theorem front_api {x : String} {cs : List Char} (h : x.toList = "api/".toList ++ cs) :
    front x = "api".toList := by
  have hcut : "api/".toList ++ cs = "api".toList ++ '/' :: cs := rfl
  rw [front, h, hcut, tidied_slash]
  exact authorityPart_slash "api".toList (tidied cs)

end Url

namespace Client

/-- An address below the base names whom the base names, unless somebody is named behind the base. -/
theorem basic_of_path {c : Client} {x : String} {u : Url}
    (h : Url.parse? (c.baseUrl ++ ("/" ++ x)) = some u) (hx : '@' ∉ Url.front x) :
    u.basic = c.basic := by
  rw [← String.append_assoc] at h
  unfold basic Url.basic
  rcases Url.parse_slash_user h with ⟨base, hbase, hu⟩ | ⟨hnone, hu⟩
  · rw [hbase, hu]
    rfl
  · rw [hnone, hu, Url.userInfo_of_plain hx]
    rfl

end Client

/-- Every call goes to an address below the same one. -/
theorem Call.path_below (call : Call α) :
    ∃ x cs, call.path = "/" ++ x ∧ x.toList = "api/".toList ++ cs := by
  have hprefix : "/api/".toList <+: call.path.toList := by
    rw [← List.isPrefixOf_iff_prefix]
    cases call <;> simp only [path, String.toList_append] <;> rfl
  obtain ⟨cs, hcs⟩ := hprefix
  refine ⟨String.ofList ("api/".toList ++ cs), cs, ?_, String.toList_ofList⟩
  apply String.toList_inj.mp
  rw [← hcs, String.toList_append]
  exact congrArg ("/".toList ++ ·) String.toList_ofList.symm

namespace Client

/-- Whatever a call puts on the wire says who asks by the name in the base and by the token. -/
theorem run_basic {c : Client} {now : Nat} {session : Session} {call : Call α} {w : Wire}
    {request : Request} (h : request ∈ (c.run now session call w).2.receivedSince w) :
    request.url.basic = c.basic := by
  obtain ⟨-, hurl, -⟩ := run_fields request h
  obtain ⟨x, cs, hpath, hx⟩ := call.path_below
  rw [hpath] at hurl
  refine basic_of_path hurl ?_
  rw [Url.front_api hx]
  decide

/-- The question for health says who asks by the name in the base alone. -/
theorem health_basic {c : Client} {request : Request} (h : c.healthDraft.request? = some request) :
    request.headers = c.basic := by
  obtain ⟨-, hurl, hheaders, -⟩ := Draft.request_fields h
  rw [hheaders, basic_of_path (x := "health") hurl (by decide)]
  exact List.append_nil _

end Client
end SignedConsole
