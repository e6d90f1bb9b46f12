/-
  PRODUCT INFORMATION — `parse_app`, `parse_pkg` and `handle_prod_info_response`.

  Every entry of a response carries a document of its own: an app a text, behind it one byte that is
  dropped, a package four bytes and a binary document.  The two loops of the handler parse them one
  after the other, and nothing stands between an entry that cannot be parsed and the end of the call.

  * `parseApp_eq_ok_iff`, `parsePkg_eq_ok_iff` — when an entry can be used;
  * `answersWithAll_iff` — the event comes exactly when all entries can;
  * `parsePkg_inside_iff` — what `parse_pkg` reads of a package that has less than its four bytes.

  The documents are the entries' own: `AppDocument` and `PkgDocument` say of the bytes of an entry
  that they are a text, or a binary document, with an object under its root key, and of that
  object that it is what the event carries.  So the event is compared with what was sent and not
  with what the parsers make of it.
-/
import SteamMin.Client.Batches
import SteamMin.Vdf.TextCorrect
import SteamMin.Vdf.BinaryGrammar

namespace SteamMin.Client

open Messages Vdf

/-! ## Entries

  What a usable entry is, said by the grammar of documents and not by the parser.  For an app the
  two agree. -/

/-- The buffer of the app holds a document with an object under its root key. -/
def AppDocument (app : ProductInfo) (appinfo : Object) : Prop :=
  ∃ es, Doc app.getBuffer.dropLast es ∧
    (Object.ofEntries es).get (ascii "appinfo") = some (.object appinfo)

/-- The buffer of the package holds four bytes and a document with an object under its root key,
    which is the id of the package; its size is a `size_t`. -/
def PkgDocument (pkg : ProductInfo) (pkginfo : Object) : Prop :=
  ∃ (skipped : Bytes) (d : BinDoc) (behind : Bytes), skipped.length = 4 ∧
    pkg.getBuffer = skipped ++ (d.encode ++ behind) ∧ pkg.getBuffer.length < 2 ^ 64 ∧
    (Object.ofEntries d.entries).get (ascii (toString pkg.getId.toNat)) = some (.object pkginfo)

/-- What an event says of an app. -/
def ProductAppInfo.ofEntry (app : ProductInfo) (appinfo : Object) : ProductAppInfo :=
  { appid := app.getId, sha := hexlify app.getSha, appinfo := .object appinfo }

/-- The same for a package. -/
def ProductPackageInfo.ofEntry (pkg : ProductInfo) (pkginfo : Object) : ProductPackageInfo :=
  { packageid := pkg.getId, sha := hexlify pkg.getSha, pkginfo := .object pkginfo }

/-- Only an object is one. -/
theorem asObject_eq_ok {node : VDFNode} {o : Object} (h : asObject node = .ok o) :
    node = .object o := by
  rcases node with ⟨v, canonical⟩
  cases v with
  | object entries =>
    cases h
    rfl
  | string _ => cases h
  | int32 _ => cases h
  | uint64 _ => cases h
  | float _ => cases h

/-- Anything else throws. -/
theorem asObject_error {node : VDFNode} {fault : Fault} (h : asObject node = .error fault) :
    fault = .throws .badVariantAccess := by
  rcases node with ⟨v, canonical⟩
  cases v with
  | object entries => cases h
  | string _ => cases h; rfl
  | int32 _ => cases h; rfl
  | uint64 _ => cases h; rfl
  | float _ => cases h; rfl

/-- The node that `[]` makes for a key that is not there is no object. -/
theorem asObject_subscript_iff {obj o : Object} {key : Bytes} :
    asObject (subscript obj key) = .ok o ↔ obj.get key = some (.object o) := by
  constructor
  · intro h
    have hnode := asObject_eq_ok h
    rw [subscript] at hnode
    cases hget : obj.get key with
    | none =>
      rw [hget] at hnode
      cases congrArg VDFNode.value hnode
    | some node =>
      rw [hget] at hnode
      rw [← hnode]
      rfl
  · intro h
    rw [subscript, h]
    rfl

/-- **An app can be used** exactly when its buffer holds such a document. -/
theorem parseApp_eq_ok_iff {app : ProductInfo} {r : ProductAppInfo} :
    parseApp app = .ok r ↔ ∃ appinfo, AppDocument app appinfo ∧ r = .ofEntry app appinfo := by
  constructor
  · intro h
    obtain ⟨vdf, hvdf, hrest⟩ := Calls.except_bind_eq_ok h
    obtain ⟨appinfo, hinfo, hr⟩ := Calls.except_bind_eq_ok hrest
    obtain ⟨es, hdoc, rfl⟩ := doc_of_parseText hvdf
    exact ⟨appinfo, ⟨es, hdoc, asObject_subscript_iff.mp hinfo⟩, (Except.ok.inj hr).symm⟩
  · rintro ⟨appinfo, ⟨es, hdoc, hget⟩, rfl⟩
    rw [parseApp]
    simp only [parseText_doc hdoc, bind, Except.bind, asObject_subscript_iff.mpr hget]
    rfl

/-! ## The region of a package

  `parse_pkg` skips four bytes it does not check for, and the size it passes on is a `size_t`: for
  a shorter buffer it wraps around. -/

/-- Where the bytes begin that `parse_pkg` hands to `parse_binary`, and how many it says they are. -/
def pkgRegion (buffer : Bytes) : Nat × Nat := (4, sizeT (buffer.length + 2 ^ 64 - 4))

/-- The parser sees the region that `pkgRegion` names, wherever that is. -/
theorem parsePkg_eq (pkg : ProductInfo) :
    parsePkg pkg = (do
      let vdf ← parseBinary (pkg.getBuffer.drop (pkgRegion pkg.getBuffer).1)
        (pkgRegion pkg.getBuffer).2
      let pkginfo ← asObject (subscript vdf (ascii (toString pkg.getId.toNat)))
      pure (.ofEntry pkg pkginfo)) := rfl

/-- The region lies inside the buffer. -/
def RegionInside (buffer : Bytes) : Prop :=
  (pkgRegion buffer).1 + (pkgRegion buffer).2 ≤ buffer.length

/-- Behind the four bytes the size is what is left, unless it wraps around. -/
theorem regionInside_iff (buffer : Bytes) : RegionInside buffer ↔ 4 ≤ buffer.length := by
  show 4 + (buffer.length + 2 ^ 64 - 4) % 2 ^ 64 ≤ buffer.length ↔ _
  constructor
  · intro h
    omega
  · intro h
    have hsize : (buffer.length + 2 ^ 64 - 4) % 2 ^ 64 = (buffer.length - 4) % 2 ^ 64 := by
      rw [show buffer.length + 2 ^ 64 - 4 = buffer.length - 4 + 2 ^ 64 by omega, Nat.add_mod_right]
    have hle := Nat.mod_le (buffer.length - 4) (2 ^ 64)
    omega

/-- There is nothing to read where a size says that there is. -/
theorem parseBinary_nil {size : Nat} (h : 0 < size) : parseBinary [] size = .error .undefined := by
  have hthrow : BinaryParser.parseObject [] size 0 = .error .undefined 0 := by
    show (if 0 < size then _ else _ : Reader Object) 0 = _
    rw [if_pos h]
    rfl
  exact parseBinary_of_throw hthrow

/-- A buffer of less than four bytes is read behind its end. -/
theorem parsePkg_short {pkg : ProductInfo} (h : pkg.getBuffer.length < 4) :
    parsePkg pkg = .error .undefined := by
  have hsize : 0 < (pkgRegion pkg.getBuffer).2 := by
    show 0 < (pkg.getBuffer.length + 2 ^ 64 - 4) % 2 ^ 64
    omega
  have hdrop : pkg.getBuffer.drop (pkgRegion pkg.getBuffer).1 = [] :=
    List.drop_of_length_le (show pkg.getBuffer.length ≤ 4 by omega)
  rw [parsePkg_eq, hdrop, parseBinary_nil hsize]
  rfl

/-- The bytes `parse_pkg` hands to the parser. -/
def pkgBytes (pkg : ProductInfo) : Bytes :=
  (pkg.getBuffer.drop (pkgRegion pkg.getBuffer).1).take (pkgRegion pkg.getBuffer).2

/-- With its four bytes, `parse_pkg` is the parser on these bytes. -/
theorem parsePkg_inside {pkg : ProductInfo} (h : 4 ≤ pkg.getBuffer.length) :
    parsePkg pkg = (do
      let vdf ← parseBinary (pkgBytes pkg) (pkgBytes pkg).length
      let pkginfo ← asObject (subscript vdf (ascii (toString pkg.getId.toNat)))
      pure (.ofEntry pkg pkginfo)) := by
  have hregion : (pkgRegion pkg.getBuffer).2
      ≤ (pkg.getBuffer.drop (pkgRegion pkg.getBuffer).1).length := by
    have hinside : (pkgRegion pkg.getBuffer).1 + (pkgRegion pkg.getBuffer).2
        ≤ pkg.getBuffer.length := (regionInside_iff _).mpr h
    rw [List.length_drop]
    omega
  have hlen : (pkgBytes pkg).length = (pkgRegion pkg.getBuffer).2 := List.length_take_of_le hregion
  rw [parsePkg_eq, hlen, pkgBytes, parseBinary_take hregion]

/-- The parser stays in its region, so it returns or throws. -/
theorem parsePkg_error {pkg : ProductInfo} (h : 4 ≤ pkg.getBuffer.length) {fault : Fault}
    (herror : parsePkg pkg = .error fault) : ∃ e, fault = .throws e := by
  rw [parsePkg_inside h] at herror
  rcases Calls.except_bind_eq_error herror with hvdf | ⟨vdf, -, herror⟩
  · rcases parseBinary_returnsOrThrows (pkgBytes pkg) with ⟨vdf, hok⟩ | ⟨what, hthrows⟩
    · cases hok.symm.trans hvdf
    · exact ⟨_, Except.error.inj (hvdf.symm.trans hthrows)⟩
  · rcases Calls.except_bind_eq_error herror with hinfo | ⟨pkginfo, -, herror⟩
    · exact ⟨_, asObject_error hinfo⟩
    · cases herror

/-- **What `parse_pkg` reads** lies inside the buffer of the package exactly when there are four
    bytes to skip; otherwise the size wraps around and the parser reads behind the buffer. -/
theorem parsePkg_inside_iff (pkg : ProductInfo) :
    (RegionInside pkg.getBuffer ∧ parsePkg pkg ≠ .error .undefined) ↔ 4 ≤ pkg.getBuffer.length := by
  constructor
  · rintro ⟨hinside, -⟩
    exact (regionInside_iff _).mp hinside
  · intro h
    refine ⟨(regionInside_iff _).mpr h, ?_⟩
    intro hundefined
    obtain ⟨e, he⟩ := parsePkg_error h hundefined
    cases he

/-- A package without a buffer. -/
theorem parsePkg_noBuffer :
    ¬ ∀ pkg : ProductInfo, RegionInside pkg.getBuffer ∧ parsePkg pkg ≠ .error .undefined := by
  intro h
  have hshort : parsePkg ⟨some 1, none, none⟩ = .error .undefined := parsePkg_short (by decide)
  exact (h ⟨some 1, none, none⟩).2 hshort

/-- The buffer of the package has its four bytes, and behind them stands a document with an object
    under the id of the package; something may stand behind it, or its last end markers be missing. -/
def PkgWritten (pkg : ProductInfo) (pkginfo : Object) : Prop :=
  4 ≤ pkg.getBuffer.length ∧ ∃ d : BinDoc, d.WrittenIn (pkgBytes pkg) ∧
    (Object.ofEntries d.entries).get (ascii (toString pkg.getId.toNat)) = some (.object pkginfo)

/-- What the parser returns for such a document is what the event says. -/
theorem parsePkg_of_written {pkg : ProductInfo} {pkginfo : Object} (h : PkgWritten pkg pkginfo) :
    parsePkg pkg = .ok (.ofEntry pkg pkginfo) := by
  obtain ⟨hfour, d, hwritten, hget⟩ := h
  rw [parsePkg_inside hfour, parseBinary_of_written hwritten]
  show (asObject (subscript (Object.ofEntries d.entries) (ascii (toString pkg.getId.toNat))) >>=
    fun info => pure (.ofEntry pkg info) : Except Fault ProductPackageInfo) = _
  rw [asObject_subscript_iff.mpr hget]
  rfl

/-- **A package can be used** exactly when its buffer holds such a document. -/
theorem parsePkg_eq_ok_iff {pkg : ProductInfo} {r : ProductPackageInfo} :
    parsePkg pkg = .ok r ↔ ∃ pkginfo, PkgWritten pkg pkginfo ∧ r = .ofEntry pkg pkginfo := by
  constructor
  · intro h
    by_cases hfour : 4 ≤ pkg.getBuffer.length
    · rw [parsePkg_inside hfour] at h
      obtain ⟨vdf, hvdf, hrest⟩ := Calls.except_bind_eq_ok h
      obtain ⟨pkginfo, hinfo, hr⟩ := Calls.except_bind_eq_ok hrest
      obtain ⟨d, hwritten, rfl⟩ := written_of_parseBinary hvdf
      exact ⟨pkginfo, ⟨hfour, d, hwritten, asObject_subscript_iff.mp hinfo⟩,
        (Except.ok.inj hr).symm⟩
    · cases (parsePkg_short (Nat.lt_of_not_le hfour)).symm.trans h
  · rintro ⟨pkginfo, hwritten, rfl⟩
    exact parsePkg_of_written hwritten

/-- A whole document behind four bytes is one that can be used. -/
theorem PkgDocument.written {pkg : ProductInfo} {pkginfo : Object} (h : PkgDocument pkg pkginfo) :
    PkgWritten pkg pkginfo := by
  obtain ⟨skipped, d, behind, hskipped, hbuffer, hsize, hget⟩ := h
  have hfour : 4 ≤ pkg.getBuffer.length := by
    rw [hbuffer, List.length_append]
    omega
  have hdrop : pkg.getBuffer.drop 4 = d.encode ++ behind := by
    rw [hbuffer, List.drop_left' hskipped]
  have hlen : (pkgRegion pkg.getBuffer).2 = (d.encode ++ behind).length := by
    show (pkg.getBuffer.length + 2 ^ 64 - 4) % 2 ^ 64 = _
    rw [← hdrop, List.length_drop]
    omega
  refine ⟨hfour, d, .inl ⟨behind, ?_⟩, hget⟩
  rw [pkgBytes, hlen, show pkg.getBuffer.drop (pkgRegion pkg.getBuffer).1 = d.encode ++ behind
    from hdrop, List.take_length]

/-! ## The two loops

  The handler parses entry by entry and stops at the first one that fails; the event comes behind
  both loops. -/

/-- The body of a product info response. -/
def responseBody (p : Platform) (packet : PacketClientMsgProtobuf) :
    CMsgClientPICSProductInfoResponse :=
  (p.protobuf.productInfoResponse.parseFromArray (packet.payload.drop packet.bodyOffset)).2

/-- The results of both loops. -/
def parseEntries (m : CMsgClientPICSProductInfoResponse) :
    Except Fault (List ProductAppInfo × List ProductPackageInfo) := do
  let apps ← m.apps.mapM parseApp
  let packages ← m.packages.mapM parsePkg
  pure (apps, packages)

/-- If every entry is accepted, so is the response. -/
theorem parseEntries_of_all {m : CMsgClientPICSProductInfoResponse}
    (happs : ∀ app ∈ m.apps, ∃ r, parseApp app = .ok r)
    (hpackages : ∀ pkg ∈ m.packages, ∃ r, parsePkg pkg = .ok r) :
    ∃ apps packages, parseEntries m = .ok (apps, packages) ∧
      List.Forall₂ (fun app r => parseApp app = .ok r) m.apps apps ∧
      List.Forall₂ (fun pkg r => parsePkg pkg = .ok r) m.packages packages := by
  obtain ⟨apps, hrun, hall⟩ := Calls.mapM_of_all happs
  obtain ⟨packages, hrun', hall'⟩ := Calls.mapM_of_all hpackages
  refine ⟨apps, packages, ?_, hall, hall'⟩
  rw [parseEntries, hrun, hrun']
  rfl

/-- The first entry that fails is the end of the loops. -/
theorem parseEntries_eq_error_iff {m : CMsgClientPICSProductInfoResponse} {fault : Fault} :
    parseEntries m = .error fault ↔ m.apps.mapM parseApp = .error fault ∨
      (∀ app ∈ m.apps, ∃ r, parseApp app = .ok r) ∧ m.packages.mapM parsePkg = .error fault := by
  constructor
  · intro h
    rcases Calls.except_bind_eq_error h with happs | ⟨apps, happs, h⟩
    · exact .inl happs
    · rcases Calls.except_bind_eq_error h with hpackages | ⟨packages, -, h⟩
      · exact .inr ⟨Calls.all_of_mapM happs, hpackages⟩
      · cases h
  · rintro (happs | ⟨hall, hpackages⟩)
    · rw [parseEntries, happs]
      rfl
    · obtain ⟨apps, happs, -⟩ := Calls.mapM_of_all hall
      rw [parseEntries, happs, hpackages]
      rfl

section
variable {C E : Type} {p : Platform} {packet : PacketClientMsgProtobuf} {c : CMClient C E}

/-- The handler as parsing and emitting. -/
theorem handleProdInfoResponse_eq (emit : Event → Calling C E Unit) :
    handleProdInfoResponse emit p packet = (do
      let entries ← Calls.lift (parseEntries (responseBody p packet))
      emit (.productInfoResult entries.1 entries.2)) := by
  rw [handleProdInfoResponse, parseEntries, Calls.lift_bind, bind_assoc]
  show (Calls.lift ((responseBody p packet).apps.mapM parseApp) >>= _ : Calling C E Unit) = _
  refine congrArg (Calls.lift _ >>= ·) (funext fun apps => ?_)
  rw [Calls.lift_bind, bind_assoc]
  rfl

/-- A response that is accepted is emitted whole. -/
theorem handleProdInfoResponse_ok {apps : List ProductAppInfo} {packages : List ProductPackageInfo}
    (h : parseEntries (responseBody p packet) = .ok (apps, packages))
    (emit : Event → Calling C E Unit) :
    handleProdInfoResponse emit p packet c = emit (.productInfoResult apps packages) c := by
  rw [handleProdInfoResponse_eq, h]
  rfl

/-- One that is not fails before the event. -/
theorem handleProdInfoResponse_error {fault : Fault}
    (h : parseEntries (responseBody p packet) = .error fault) (emit : Event → Calling C E Unit) :
    handleProdInfoResponse emit p packet c = .error fault c := by
  rw [handleProdInfoResponse_eq, h]
  rfl

/-! ## The event

  One entry that cannot be used takes the others with it. -/

/-- `rs` is about entries of `as`, in their order; an entry may be missing if it `Holds` nothing. -/
inductive Listed {α β : Type} (About Holds : α → β → Prop) : List α → List β → Prop
  | nil : Listed About Holds [] []
  | listed {a : α} {r : β} {as : List α} {rs : List β} : About a r →
      (∀ r', Holds a r' → r' = r) → Listed About Holds as rs → Listed About Holds (a :: as) (r :: rs)
  | missing {a : α} {as : List α} {rs : List β} : (∀ r, ¬ Holds a r) →
      Listed About Holds as rs → Listed About Holds (a :: as) rs

/-- One event is emitted, and it lists every app and every package with a usable document, under
    its id. -/
def AnswersWithAll (p : Platform) (packet : PacketClientMsgProtobuf) (c : CMClient C E) : Prop :=
  ∃ apps packages,
    (∀ emit : Event → Calling C E Unit,
      handleProdInfoResponse emit p packet c = emit (.productInfoResult apps packages) c) ∧
    Listed (fun app r => r.appid = app.getId)
      (fun app r => ∃ info, AppDocument app info ∧ r = .ofEntry app info)
      (responseBody p packet).apps apps ∧
    Listed (fun pkg r => r.packageid = pkg.getId)
      (fun pkg r => ∃ info, PkgDocument pkg info ∧ r = .ofEntry pkg info)
      (responseBody p packet).packages packages

/-- The apps of the event are those of the response, in order, each with its document. -/
theorem listed_apps {as : List ProductInfo} {rs : List ProductAppInfo}
    (h : List.Forall₂ (fun app r => parseApp app = .ok r) as rs) :
    Listed (fun app r => r.appid = app.getId)
      (fun app r => ∃ info, AppDocument app info ∧ r = .ofEntry app info) as rs := by
  induction h with
  | nil => exact .nil
  | cons hr _ ih =>
    refine .listed ?_ ?_ ih
    · obtain ⟨info, -, rfl⟩ := parseApp_eq_ok_iff.mp hr
      rfl
    · intro r' hr'
      exact Except.ok.inj ((parseApp_eq_ok_iff.mpr hr').symm.trans hr)

/-- So are the packages. -/
theorem listed_packages {as : List ProductInfo} {rs : List ProductPackageInfo}
    (h : List.Forall₂ (fun pkg r => parsePkg pkg = .ok r) as rs) :
    Listed (fun pkg r => r.packageid = pkg.getId)
      (fun pkg r => ∃ info, PkgDocument pkg info ∧ r = .ofEntry pkg info) as rs := by
  induction h with
  | nil => exact .nil
  | cons hr _ ih =>
    refine .listed ?_ ?_ ih
    · obtain ⟨info, -, rfl⟩ := parsePkg_eq_ok_iff.mp hr
      rfl
    · rintro r' ⟨info, hinfo, rfl⟩
      have hr' := parsePkg_eq_ok_iff.mpr ⟨info, hinfo.written, rfl⟩
      exact Except.ok.inj (hr'.symm.trans hr)

/-- A response whose loops fail is not answered at all. -/
theorem not_answersWithAll {fault : Fault} (h : parseEntries (responseBody p packet) = .error fault) :
    ¬ AnswersWithAll p packet c := by
  rintro ⟨apps, packages, hemit, -⟩
  cases (handleProdInfoResponse_error h fun _ => pure ()).symm.trans (hemit fun _ => pure ())

/-- **All or nothing**: the event comes, with every usable entry in it, exactly when every app and
    every package holds a document with its root key. -/
theorem answersWithAll_iff : AnswersWithAll p packet c ↔
    (∀ app ∈ (responseBody p packet).apps, ∃ info, AppDocument app info) ∧
      ∀ pkg ∈ (responseBody p packet).packages, ∃ info, PkgWritten pkg info := by
  constructor
  · intro h
    cases hentries : parseEntries (responseBody p packet) with
    | error fault => exact absurd h (not_answersWithAll hentries)
    | ok entries =>
      -- both loops came to their end, so every entry was accepted
      obtain ⟨apps, happs, hrest⟩ := Calls.except_bind_eq_ok hentries
      obtain ⟨packages, hpackages, -⟩ := Calls.except_bind_eq_ok hrest
      constructor
      · intro app hmem
        obtain ⟨r, hr⟩ := Calls.all_of_mapM happs app hmem
        obtain ⟨info, hinfo, -⟩ := parseApp_eq_ok_iff.mp hr
        exact ⟨info, hinfo⟩
      · intro pkg hmem
        obtain ⟨r, hr⟩ := Calls.all_of_mapM hpackages pkg hmem
        obtain ⟨info, hinfo, -⟩ := parsePkg_eq_ok_iff.mp hr
        exact ⟨info, hinfo⟩
  · rintro ⟨happs, hpackages⟩
    have hparse : ∀ app ∈ (responseBody p packet).apps, ∃ r, parseApp app = .ok r := by
      intro app hmem
      obtain ⟨info, hinfo⟩ := happs app hmem
      exact ⟨_, parseApp_eq_ok_iff.mpr ⟨info, hinfo, rfl⟩⟩
    have hparse' : ∀ pkg ∈ (responseBody p packet).packages, ∃ r, parsePkg pkg = .ok r := by
      intro pkg hmem
      obtain ⟨info, hinfo⟩ := hpackages pkg hmem
      exact ⟨_, parsePkg_eq_ok_iff.mpr ⟨info, hinfo, rfl⟩⟩
    obtain ⟨apps, packages, hok, hlisted, hlisted'⟩ := parseEntries_of_all hparse hparse'
    exact ⟨apps, packages, handleProdInfoResponse_ok hok, listed_apps hlisted,
      listed_packages hlisted'⟩

end

/-- Two apps: one with its document, and one that was asked for without a token and has no buffer. -/
def tokenlessResponse : PacketClientMsgProtobuf :=
  protoPacket EMsg.clientPICSProductInfoResponse (CMsgClientPICSProductInfoResponse.wire
    { apps := [⟨some 10, none, some (ascii "\"appinfo\" \x7b\x7d" ++ [0])⟩, ⟨some 20, none, none⟩]
      packages := [] })

/-- Neither of them is reported. -/
theorem answersWithAll_tokenless : ¬ ∀ (p : Platform) (packet : PacketClientMsgProtobuf)
    (c : CMClient Net.Connection Net.Lookup), AnswersWithAll p packet c := by
  intro h
  have hentries : parseEntries (responseBody wirePlatform tokenlessResponse)
      = .error (.throws .badVariantAccess) := rfl
  exact not_answersWithAll hentries (h wirePlatform tokenlessResponse System.onTcp.client)

end SteamMin.Client
