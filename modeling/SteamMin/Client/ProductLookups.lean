/-
  WHAT THE PROGRAM FINDS IN A PRODUCT INFO RESULT.

  Between the bytes of a response and the values a program reads off the event stand two parsers, two
  root keys and the accessors of the nodes.  Put together they are transparent: an app of the event
  answers every path of keys as the text in the response does behind `appinfo`, and a package as its
  binary document does behind its id, the last entry for a key counting at every level
  (`productInfo_answers_run`).  A package whose last end markers are missing is reported as well.

  The listener of `get_info` looks up the name of each app in this way (`nameOf_eq`).
-/
import SteamMin.Client.GetInfo
import SteamMin.Client.ProductInfo
import SteamMin.Vdf.Lookup

namespace SteamMin.Client

open Messages Crypto Vdf
open Runs (EveryState)

/-! ## Answers -/

/-- A node of the event answers every path as the document does behind its root key. -/
def AnswersPaths (es : Entries) (root : Bytes) (node : VDFNode) : Prop :=
  ∀ keys, node.getPath keys = ((Value.object es).lookup (root :: keys)).map VDFNode.ofValue

/-- The parsed object answers a path as the document says. -/
theorem answersPaths_of_get {es : Entries} {root : Bytes} {info : Object}
    (h : (Object.ofEntries es).get root = some (.object info)) :
    AnswersPaths es root (.object info) := by
  intro keys
  rw [← getPath_ofValue, VDFNode.getPath_cons, VDFNode.ofValue_object, VDFNode.get_object, h]
  rfl

/-- What the event says of an app is what the app's text says. -/
structure AnswersApp (app : ProductInfo) (r : ProductAppInfo) : Prop where
  appid : r.appid = app.getId
  sha : r.sha = hexlify app.getSha
  appinfo : ∃ es, Doc app.getBuffer.dropLast es ∧ AnswersPaths es (ascii "appinfo") r.appinfo

/-- What the event says of a package is what its binary document says. -/
structure AnswersPkg (pkg : ProductInfo) (r : ProductPackageInfo) : Prop where
  packageid : r.packageid = pkg.getId
  sha : r.sha = hexlify pkg.getSha
  behind : 4 ≤ pkg.getBuffer.length
  pkginfo : ∃ d : BinDoc, d.WrittenIn (pkgBytes pkg) ∧
    AnswersPaths d.entries (ascii (toString pkg.getId.toNat)) r.pkginfo

/-- An app that was parsed answers from its document. -/
theorem answersApp_of_parseApp {app : ProductInfo} {r : ProductAppInfo}
    (h : parseApp app = .ok r) : AnswersApp app r := by
  obtain ⟨appinfo, ⟨es, hdoc, hget⟩, rfl⟩ := parseApp_eq_ok_iff.mp h
  exact ⟨rfl, rfl, es, hdoc, answersPaths_of_get hget⟩

/-- So does a package. -/
theorem answersPkg_of_parsePkg {pkg : ProductInfo} {r : ProductPackageInfo}
    (h : parsePkg pkg = .ok r) : AnswersPkg pkg r := by
  obtain ⟨pkginfo, ⟨hfour, d, hwritten, hget⟩, rfl⟩ := parsePkg_eq_ok_iff.mp h
  exact ⟨rfl, rfl, hfour, d, hwritten, answersPaths_of_get hget⟩

/-- Both loops list an answer for each entry, in order. -/
theorem answers_of_parseEntries {m : CMsgClientPICSProductInfoResponse}
    {apps : List ProductAppInfo} {packages : List ProductPackageInfo}
    (h : parseEntries m = .ok (apps, packages)) :
    List.Forall₂ AnswersApp m.apps apps ∧ List.Forall₂ AnswersPkg m.packages packages := by
  obtain ⟨apps', happs, hrest⟩ := Calls.except_bind_eq_ok h
  obtain ⟨packages', hpackages, -⟩ := Calls.except_bind_eq_ok hrest
  obtain ⟨apps'', packages'', hentries, hall, hall'⟩ :=
    parseEntries_of_all (Calls.all_of_mapM happs) (Calls.all_of_mapM hpackages)
  cases hentries.symm.trans h
  exact ⟨hall.imp fun _ _ => answersApp_of_parseApp, hall'.imp fun _ _ => answersPkg_of_parsePkg⟩

/-! ## Whole runs -/

section
variable {p : Platform} {key : Bytes} {b : Bool} {n : UInt64} {log l r : List Entry}
variable {apps : List ProductAppInfo} {packages : List ProductPackageInfo}

/-- In a record of turns, product information answers for the packet it stands behind. -/
theorem Turns.answers (h : Turns p key b n log)
    (hsplit : log = l ++ .emitted (.productInfoResult apps packages) :: r) :
    ∃ l' packet, l = l' ++ [.dispatchedProto packet] ∧
      getMsg packet.msgType = EMsg.clientPICSProductInfoResponse ∧
      List.Forall₂ AnswersApp (responseBody p packet).apps apps ∧
      List.Forall₂ AnswersPkg (responseBody p packet).packages packages := by
  obtain ⟨l', cause, hl, hbehind⟩ := h.behind hsplit id
  cases hbehind with
  | emitted hcause =>
    cases hcause with
    | productInfo htype hentries =>
      obtain ⟨happs, hpackages⟩ := answers_of_parseEntries hentries
      exact ⟨l', _, hl, htype, happs, hpackages⟩

end

section
variable {C E M : Type} [Transport C E M]

/-- **Product information is what the documents say**: in every state of every run of a new client,
    an event with product information stands behind a packet of that type, and lists each app and
    each package of its response, in order, under its id and its hash; and on every path of keys each
    of them answers as its document does below the root key. -/
theorem productInfo_answers_run (p : Platform) (fuel : Nat) (connection : C)
    (crypto : EncryptionManager) (acts : List (Act E M)) :
    EveryState (step p fuel) (fun s => ∀ l apps packages r,
      s.client.log = l ++ .emitted (.productInfoResult apps packages) :: r →
      ∃ l' packet, l = l' ++ [.dispatchedProto packet] ∧
        getMsg packet.msgType = EMsg.clientPICSProductInfoResponse ∧
        List.Forall₂ AnswersApp (responseBody p packet).apps apps ∧
        List.Forall₂ AnswersPkg (responseBody p packet).packages packages)
      (System.initial connection crypto) acts := by
  intro acts₁ acts₂ s hacts hrun l apps packages r hsplit
  exact (turns_run p fuel connection crypto acts acts₁ acts₂ s hacts hrun).turns.answers hsplit

end

/-! ## The listener of `get_info` -/

namespace GetInfo

/-- The name printed for an app, if there is a `common`:
    `common->get_string_or("name", "Unknown")`. -/
def nameOf (app : ProductAppInfo) : Option Bytes :=
  (app.appinfo.get (ascii "common")).map fun common =>
    common.getStringOr (ascii "name") (ascii "Unknown")

/-- It is the string the document has under these keys. -/
theorem nameOf_eq {es : Entries} {app : ProductAppInfo}
    (h : AnswersPaths es (ascii "appinfo") app.appinfo) :
    nameOf app = ((Value.object es).lookup [ascii "appinfo", ascii "common"]).map fun common =>
      ((common.lookup [ascii "name"]).bind fun name =>
        (VDFNode.ofValue name).stringIf).getD (ascii "Unknown") := by
  have hcommon := h [ascii "common"]
  rw [VDFNode.getPath_singleton] at hcommon
  rw [nameOf, hcommon, Option.map_map]
  refine congrArg (Option.map · _) (funext fun common => ?_)
  have hname := getPath_ofValue [ascii "name"] common
  rw [VDFNode.getPath_singleton] at hname
  show VDFNode.getStringOr (VDFNode.ofValue common) _ _ = _
  rw [VDFNode.getStringOr, VDFNode.getOr, hname]
  cases common.lookup [ascii "name"] with
  | none => rfl
  | some name => rfl

end GetInfo

end SteamMin.Client
