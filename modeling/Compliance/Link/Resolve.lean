import Compliance.Document.Basic
import Compliance.Link.Errata
import Compliance.Link.Html
import Compliance.Text.Lowercase

/-!
Where references lead. A reference names a system and a value in it; the systems are the
built-in ones and, after them, the configured ones. Letter case of a system does not matter.
-/
namespace Compliance

structure LinkSystem where
  system : String
  urlPrefix : String
  urlSuffix : String
  deriving DecidableEq

inductive LinkRule where
  | around (before after : String)
  | errataPage
  deriving DecidableEq

def LinkRule.url : LinkRule → String → String
  | .around before after, value => before ++ value ++ after
  | .errataPage, value => "http://rhn.redhat.com/errata/" ++ Errata.slug value ++ ".html"

namespace Link

def builtIn : List (String × LinkRule) :=
  [("http://cce.mitre.org", .around "http://scapsync.com/cce/" ""),
   ("http://cpe.mitre.org",
    .around ("http://web.nvd.nist.gov/view/cpe/search/results"
      ++ "?searchChoice=name&includeDeprecated=on&searchText=") ""),
   ("http://cve.mitre.org", .around "http://web.nvd.nist.gov/view/vuln/detail?vulnId=" ""),
   ("http://www.cert.org", .around "http://www.cert.org/advisories/" ".html"),
   ("http://www.kb.cert.org", .around "http://www.kb.cert.org/vuls/id/" ""),
   ("http://www.us-cert.gov/cas/techalerts", .around "http://www.us-cert.gov/ncas/alerts/" ""),
   ("http://rhn.redhat.com/errata", .errataPage),
   ("http://tools.cisco.com/security/center/content/ciscosecurityadvisory",
    .around "http://tools.cisco.com/security/center/content/CiscoSecurityAdvisory/" ""),
   ("http://iase.disa.mil/cci", .around "http://jovalcm.com/references/cci/" "")]

def url (custom : List LinkSystem) (r : Reference) : Option String :=
  let system := Text.lowercase r.system
  match builtIn.lookup system with
  | some rule => some (rule.url r.value)
  | none =>
    (custom.find? fun c => Text.lowercase c.system = system).map fun c =>
      c.urlPrefix ++ r.value ++ c.urlSuffix

def display (custom : List LinkSystem) (r : Reference) : ReferenceDisplay :=
  ⟨r.value, url custom r⟩

end Link
end Compliance
