/-! Lists written out. -/
namespace ClusterMetadata.Text

def commaJoin (parts : List String) : String := String.intercalate ", " parts

end ClusterMetadata.Text
