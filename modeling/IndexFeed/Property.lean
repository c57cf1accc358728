/-!
The names of the reserved properties. A document sets them to steer how it is fed; any other name is
plain metadata. The properties that describe access control belong together, and those that the
record itself carries are kept out of the metadata.
-/

namespace IndexFeed.Property

def docid : String := "google:docid"
def content : String := "google:content"
def contentUrl : String := "google:contenturl"
def contentEncoding : String := "google:contentencoding"
def contentLength : String := "google:contentlength"
def displayUrl : String := "google:displayurl"
def searchUrl : String := "google:searchurl"
def mimetype : String := "google:mimetype"
def lastModified : String := "google:lastmodified"
def title : String := "google:title"
def isPublic : String := "google:ispublic"
def authMethod : String := "google:authmethod"
def action : String := "google:action"
def lock : String := "google:lock"
def crawlImmediately : String := "google:crawlimmediately"
def crawlOnce : String := "google:crawlonce"
def pageRank : String := "google:pagerank"
def documentType : String := "google:documenttype"
def feedType : String := "google:feedtype"
def overwriteAcls : String := "google:overwriteacls"
def securityToken : String := "google:securitytoken"
def fragment : String := "google:fragment"

def aclUsers : String := "google:aclusers"
def aclGroups : String := "google:aclgroups"
def aclDenyUsers : String := "google:acldenyusers"
def aclDenyGroups : String := "google:acldenygroups"
def aclInheritanceType : String := "google:aclinheritancetype"
def aclInheritFrom : String := "google:aclinheritfrom"
def aclInheritFromDocid : String := "google:aclinheritfrom:docid"
def aclInheritFromFeedType : String := "google:aclinheritfrom:feedtype"
def aclInheritFromFragment : String := "google:aclinheritfrom:fragment"

def entryLists : List String := [aclUsers, aclGroups, aclDenyUsers, aclDenyGroups]

def accessNames : List String :=
  entryLists ++ [aclInheritanceType, aclInheritFrom, aclInheritFromDocid,
    aclInheritFromFeedType, aclInheritFromFragment]

def isAcl (name : String) : Bool := accessNames.contains name

/-- The properties, access control aside, that never appear in the metadata. -/
def withheld : List String :=
  [action, authMethod, content, contentUrl, contentEncoding, contentLength, crawlImmediately,
    crawlOnce, displayUrl, docid, documentType, feedType, fragment, isPublic, lastModified, lock,
    mimetype, overwriteAcls, pageRank, searchUrl, securityToken]

def isWithheld (name : String) : Bool := withheld.contains name || isAcl name

theorem isAcl_accessNames {name : String} (listed : name ∈ accessNames) : isAcl name = true :=
  List.contains_iff_mem.mpr listed

theorem isAcl_withheld {name : String} (listed : name ∈ withheld) : isAcl name = false := by
  have each : ∀ name ∈ withheld, isAcl name = false := by decide
  exact each name listed

/-- The properties any of which gives a document access control of its own. -/
def aclMarks : List String :=
  entryLists ++ [aclInheritFrom, aclInheritFromDocid]

def extractedFragment : String := "generated-acl"

def defaultMimetype : String := "text/html"

end IndexFeed.Property
