import Wiretally.Attempts

/-!
Requests with no authority in their URI.

The URI is rebuilt as a text, of what the `Host` header says and what the client asked for, and
parsed again. So the boundary between the two is where the parser finds it: behind the header's
value if nothing in it ends an authority and the target does.
-/

namespace Wiretally.Absolutize

open Wiretally.Text Wiretally.Proxy Wiretally.Attempts

/-! ### Requests and responses -/

/-- The URI of a request; `pathAndQuery` is its target if it has no authority. -/
structure RequestUri extends Uri where
  pathAndQuery : Option Text

/-- A request without its body. The names of headers are in lower case. -/
structure Request where
  method : Text
  uri : RequestUri
  headers : List (Text × List UInt8)

structure Response where
  status : ℕ
  headers : List (Text × List UInt8)
  body : List UInt8

namespace Request

def get (req : Request) (name : Text) : Option (List UInt8) :=
  (req.headers.find? fun h => h.1 = name).map (·.2)

def remove (req : Request) (name : Text) : Request :=
  { req with headers := req.headers.filter fun h => h.1 ≠ name }

/-- The target, or the root. -/
def path (req : Request) : Text := req.uri.pathAndQuery.getD ['/']

end Request

/-- What the HTTP library does with texts: `HeaderValue::to_str`, and `str::parse::<Uri>` with
its error displayed. -/
structure Http where
  toStr : List UInt8 → Option Text
  parseUri : Text → Except Text RequestUri

def badRequest : ℕ := 400
def badGateway : ℕ := 502

/-- Headers about the connection to the proxy itself, which are not passed on. -/
def hopByHop : List Text :=
  ["proxy-connection", "proxy-authorization", "keep-alive"].map (·.toList)

def host : Text := "host".toList

def errorResponse (status : ℕ) (message : Text) : Response where
  status := status
  headers := [("content-type".toList, ascii "text/plain")]
  body := asBytes message

/-- Rebuilds the URI of a request into absolute form using the `Host` header. -/
def absolutize (http : Http) (req : Request) : Except Text Request :=
  match (req.get host).bind http.toStr with
  | none => .error "request has neither an absolute URI nor a Host header".toList
  | some host =>
    match http.parseUri ("http://".toList ++ (host ++ req.path)) with
    | .ok uri => .ok { req with uri := uri }
    | .error err => .error ("cannot build absolute URI: ".toList ++ err)

/-- Hands a request to the client, and makes a response of its failure. -/
def send (client : Request → Except Text Response) (req : Request) : Response × List Request :=
  match client req with
  | .ok resp => (resp, [req])
  | .error err =>
    (errorResponse badGateway ("upstream request failed: ".toList ++ err), [req])

/-- The request without the headers that are not passed on. -/
def stripped (req : Request) : Request := hopByHop.foldl Request.remove req

/-- Forwards a request upstream: the response, and the requests the client was handed. -/
def forward (http : Http) (client : Request → Except Text Response) (req : Request) :
    Response × List Request :=
  let req := stripped req
  if req.uri.authority = none then
    match absolutize http req with
    | .error err => (errorResponse badRequest err, [])
    | .ok req => send client req
  else send client req

/-! ### Where an authority ends -/

/-- A slash, a question mark or a number sign. -/
def endsAuthority (c : Char) : Bool := c = '/' || c = '?' || c = '#'

/-- The parser ends the authority of an absolute URI at the first character that ends one, and
takes a path that follows as it is. -/
structure EndsAuthority (parseUri : Text → Except Text RequestUri) : Prop where
  authority : ∀ rest uri, parseUri ("http://".toList ++ rest) = .ok uri →
    uri.authority = some (rest.takeWhile fun c => !endsAuthority c)
  path : ∀ rest uri, parseUri ("http://".toList ++ rest) = .ok uri →
    ∀ path, rest.dropWhile (fun c => !endsAuthority c) = path → path.head? = some '/' →
      '#' ∉ path → uri.pathAndQuery = some path

/-- A URI in origin form, or the asterisk. -/
structure Relative (uri : RequestUri) : Prop where
  authority : uri.authority = none
  target : ∀ target, uri.pathAndQuery = some target →
    target = ['*'] ∨ (target.head? = some '/' ∧ '#' ∉ target)

/-- The URI names the host and the target of the request. -/
def Names (uri : RequestUri) (host : Text) (req : Request) : Prop :=
  uri.authority = some host ∧ uri.pathAndQuery = some req.path

lemma takeWhile_append_of_all {host path : Text} (h : ∀ c ∈ host, endsAuthority c = false) :
    (host ++ path).takeWhile (fun c => !endsAuthority c) =
      host ++ path.takeWhile fun c => !endsAuthority c :=
  List.takeWhile_append_of_pos fun c hc => by rw [h c hc]; rfl

lemma dropWhile_append_of_all {host path : Text} (h : ∀ c ∈ host, endsAuthority c = false) :
    (host ++ path).dropWhile (fun c => !endsAuthority c) =
      path.dropWhile fun c => !endsAuthority c :=
  List.dropWhile_append_of_pos fun c hc => by rw [h c hc]; rfl

lemma all_of_takeWhile {host path : Text}
    (h : (host ++ path).takeWhile (fun c => !endsAuthority c) = host) :
    ∀ c ∈ host, endsAuthority c = false := by
  intro c hc
  rw [← h] at hc
  have := List.mem_takeWhile_imp hc
  simpa using this

/-- A path ends the authority in front of it. -/
lemma whiles_of_slash {path : Text} (h : path.head? = some '/') :
    path.takeWhile (fun c => !endsAuthority c) = [] ∧
      path.dropWhile (fun c => !endsAuthority c) = path := by
  cases path with
  | nil => cases h
  | cons c rest =>
    cases h
    exact ⟨rfl, rfl⟩

/-- **The rebuilt URI** names the host and the target exactly if nothing in the host ends an
authority and the target is not the asterisk. -/
lemma names_iff {parseUri : Text → Except Text RequestUri} (hparse : EndsAuthority parseUri)
    {req : Request} (hrel : Relative req.uri) {host : Text} {uri : RequestUri}
    (hok : parseUri ("http://".toList ++ (host ++ req.path)) = .ok uri) :
    Names uri host req ↔
      (∀ c ∈ host, endsAuthority c = false) ∧ req.uri.pathAndQuery ≠ some ['*'] := by
  have hauth := hparse.authority _ _ hok
  constructor
  · rintro ⟨hhost, -⟩
    have hwhole := Option.some_inj.mp (hauth.symm.trans hhost)
    have hall := all_of_takeWhile hwhole
    refine ⟨hall, fun hstar => ?_⟩
    rw [takeWhile_append_of_all hall, List.append_right_eq_self] at hwhole
    unfold Request.path at hwhole
    rw [hstar] at hwhole
    cases hwhole
  · rintro ⟨hall, hstar⟩
    have hpath : req.path.head? = some '/' ∧ '#' ∉ req.path := by
      unfold Request.path
      cases hpq : req.uri.pathAndQuery with
      | none => exact ⟨rfl, by decide⟩
      | some target =>
        refine (hrel.target target hpq).resolve_left ?_
        rintro rfl
        exact hstar hpq
    obtain ⟨htake, hdrop⟩ := whiles_of_slash hpath.1
    refine ⟨?_, hparse.path _ _ hok _ ?_ hpath.1 hpath.2⟩
    · rw [hauth, takeWhile_append_of_all hall, htake, List.append_nil]
    · rw [dropWhile_append_of_all hall, hdrop]

/-! ### Stripping -/

@[simp] lemma uri_stripped (req : Request) : (stripped req).uri = req.uri := rfl

@[simp] lemma path_stripped (req : Request) : (stripped req).path = req.path := rfl

lemma get_remove {req : Request} {name other : Text} (h : other ≠ name) :
    (req.remove name).get other = req.get other := by
  unfold Request.get Request.remove
  rw [List.find?_filter]
  congr 2
  funext x
  by_cases hx : x.1 = other
  · simp [hx, h]
  · simp [hx]

lemma host_stripped (req : Request) : (stripped req).get host = req.get host := by
  have hnot : ∀ name ∈ hopByHop, host ≠ name := by decide +kernel
  unfold stripped
  generalize hopByHop = names at hnot
  induction names generalizing req with
  | nil => rfl
  | cons name names ih =>
    rw [List.foldl_cons, ih _ fun n hn => hnot n (List.mem_cons_of_mem _ hn)]
    exact get_remove (hnot name List.mem_cons_self)

lemma send_snd (client : Request → Except Text Response) (req : Request) :
    (send client req).2 = [req] := by
  unfold send
  cases client req <;> rfl

/-- **Requests with no authority.** If no URI can be built the request is answered with 400 and
nobody is contacted. If one is built it is what the client is handed; and it names the host of
the header and the target of the request exactly if nothing in the header's value ends an
authority and the target is not the asterisk. -/
theorem forward_iff {http : Http} (hparse : EndsAuthority http.parseUri) {req : Request}
    (hrel : Relative req.uri) (client : Request → Except Text Response) :
    (∀ err, absolutize http (stripped req) = .error err →
      forward http client req = (errorResponse badRequest err, [])) ∧
    ∀ rebuilt, absolutize http (stripped req) = .ok rebuilt →
      (forward http client req).2 = [rebuilt] ∧
      ∃ value, (req.get host).bind http.toStr = some value ∧
        (Names rebuilt.uri value req ↔
          (∀ c ∈ value, endsAuthority c = false) ∧ req.uri.pathAndQuery ≠ some ['*']) := by
  have hforward : forward http client req =
      match absolutize http (stripped req) with
      | .error err => (errorResponse badRequest err, [])
      | .ok req => send client req := if_pos hrel.authority
  refine ⟨fun err herr => by rw [hforward, herr], fun rebuilt hok => ⟨?_, ?_⟩⟩
  · rw [hforward, hok]
    exact send_snd client rebuilt
  · unfold absolutize at hok
    rw [host_stripped, path_stripped] at hok
    cases hvalue : (req.get host).bind http.toStr with
    | none =>
      rw [hvalue] at hok
      cases hok
    | some value =>
      rw [hvalue] at hok
      simp only at hok
      refine ⟨value, rfl, ?_⟩
      cases huri : http.parseUri ("http://".toList ++ (value ++ req.path)) with
      | error err =>
        rw [huri] at hok
        cases hok
      | ok uri =>
        rw [huri] at hok
        cases hok
        exact names_iff hparse hrel huri

/-! ### Targets and hosts that move the boundary -/

def parseAbsolute (text : Text) : Except Text RequestUri :=
  match text.dropPrefix? "http://".toList with
  | some rest =>
    let authority := rest.takeWhile fun c => !endsAuthority c
    let path := (rest.dropWhile fun c => !endsAuthority c).takeWhile (· ≠ '#')
    if authority = [] then .error "invalid format".toList
    else .ok ⟨⟨some "http".toList, some authority⟩, some (if path = [] then ['/'] else path)⟩
  | none => .error "invalid format".toList

def visible (value : List UInt8) : Option Text :=
  if value.all fun b => (32 ≤ b && b < 127) || b = 9 then
    some (value.map fun b => Char.ofNat b.toNat)
  else none

lemma endsAuthority_parseAbsolute : EndsAuthority parseAbsolute := by
  have hok : ∀ rest uri, parseAbsolute ("http://".toList ++ rest) = .ok uri →
      uri.authority = some (rest.takeWhile fun c => !endsAuthority c) ∧
      ∀ path, (rest.dropWhile fun c => !endsAuthority c).takeWhile (· ≠ '#') = path → path ≠ [] →
        uri.pathAndQuery = some path := by
    intro rest uri h
    unfold parseAbsolute at h
    rw [List.dropPrefix?_append_of_beq _ (by simp)] at h
    simp only at h
    split_ifs at h with hnone hroot
    · cases h
      exact ⟨rfl, fun path hpath hne => absurd (hpath.symm.trans hroot) hne⟩
    · cases h
      exact ⟨rfl, fun path hpath _ => congrArg some hpath⟩
  refine ⟨fun rest uri h => (hok rest uri h).1, fun rest uri h path hpath hslash hnum => ?_⟩
  refine (hok rest uri h).2 path ?_ ?_
  · rw [hpath, List.takeWhile_eq_self_iff]
    intro c hc
    rw [decide_eq_true_eq]
    rintro rfl
    exact hnum hc
  · rintro rfl
    cases hslash

def plain : Http := ⟨visible, parseAbsolute⟩

def nobody : Request → Except Text Response := fun _ => .error "nobody there".toList

/-- `OPTIONS *` to `a.example`. -/
def asterisk : Request where
  method := "OPTIONS".toList
  uri := ⟨⟨none, none⟩, some ['*']⟩
  headers := [(host, ascii "a.example")]

/-- `GET /x` to `a.example/b`. -/
def slashed : Request where
  method := "GET".toList
  uri := ⟨⟨none, none⟩, some "/x".toList⟩
  headers := [(host, ascii "a.example/b")]

lemma relative_asterisk : Relative asterisk.uri where
  authority := rfl
  target _ h := .inl (Option.some_inj.mp h).symm

theorem forward_iff_asterisk :
    (∀ err, absolutize plain (stripped asterisk) = .error err →
      forward plain nobody asterisk = (errorResponse badRequest err, [])) ∧
    ∀ rebuilt, absolutize plain (stripped asterisk) = .ok rebuilt →
      (forward plain nobody asterisk).2 = [rebuilt] ∧
      ∃ value, (asterisk.get host).bind visible = some value ∧
        (Names rebuilt.uri value asterisk ↔
          (∀ c ∈ value, endsAuthority c = false) ∧ asterisk.uri.pathAndQuery ≠ some ['*']) :=
  forward_iff endsAuthority_parseAbsolute relative_asterisk nobody

def rebuiltAuthority (req : Request) : Option Text :=
  match absolutize plain (stripped req) with
  | .ok rebuilt => rebuilt.uri.authority
  | .error _ => none

lemma not_names_of_rebuiltAuthority {req : Request} {authority value : Text}
    (h : rebuiltAuthority req = some authority) (hne : authority ≠ value) :
    ∃ rebuilt, absolutize plain (stripped req) = .ok rebuilt ∧
      rebuilt.uri.authority = some authority ∧ ¬ Names rebuilt.uri value req := by
  unfold rebuiltAuthority at h
  cases hok : absolutize plain (stripped req) with
  | error err =>
    rw [hok] at h
    cases h
  | ok rebuilt =>
    rw [hok] at h
    exact ⟨rebuilt, rfl, h, fun hnames => hne (Option.some_inj.mp (h.symm.trans hnames.1))⟩

/-- The first goes to `a.example*`, the second to `a.example` and another path. -/
theorem boundary_moved :
    (∃ rebuilt, absolutize plain (stripped asterisk) = .ok rebuilt ∧
      rebuilt.uri.authority = some "a.example*".toList ∧
      ¬ Names rebuilt.uri "a.example".toList asterisk) ∧
    ∃ rebuilt, absolutize plain (stripped slashed) = .ok rebuilt ∧
      rebuilt.uri.authority = some "a.example".toList ∧
      ¬ Names rebuilt.uri "a.example/b".toList slashed :=
  ⟨not_names_of_rebuiltAuthority (by decide +kernel) (by decide +kernel),
    not_names_of_rebuiltAuthority (by decide +kernel) (by decide +kernel)⟩

end Wiretally.Absolutize
