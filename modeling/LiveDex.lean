import LiveDex.AccessFlags
import LiveDex.Bundle
import LiveDex.Bytes
import LiveDex.ClassFile.Basic
import LiveDex.ClassFile.Constant
import LiveDex.ClassFile.Error
import LiveDex.ClassFile.Layout
import LiveDex.ClassFile.Parser
import LiveDex.ClassFile.Pool
import LiveDex.ClassName
import LiveDex.Container.Decode
import LiveDex.Container.Description
import LiveDex.Container.Encode
import LiveDex.Container.Interning
import LiveDex.Container.Layout
import LiveDex.Container.Optimized
import LiveDex.Container.Tables
import LiveDex.Container.Validation
import LiveDex.Definition
import LiveDex.Descriptor
import LiveDex.Descriptor.Scan
import LiveDex.Dialect
import LiveDex.Digest
import LiveDex.Image
import LiveDex.Loading
import LiveDex.Log.Basic
import LiveDex.Log.Setup
import LiveDex.Lowering
import LiveDex.Path
import LiveDex.Proofs.Actions
import LiveDex.Proofs.ArgumentWindow
import LiveDex.Proofs.Assembly
import LiveDex.Proofs.Canonical
import LiveDex.Proofs.ClassFileFormat
import LiveDex.Proofs.ConstantPool
import LiveDex.Proofs.ContainerFormat
import LiveDex.Proofs.Corruption
import LiveDex.Proofs.Defects
import LiveDex.Proofs.Definition
import LiveDex.Proofs.Description
import LiveDex.Proofs.Files
import LiveDex.Proofs.FirstUses
import LiveDex.Proofs.Images
import LiveDex.Proofs.Interning
import LiveDex.Proofs.LoadOutcome
import LiveDex.Proofs.Loading
import LiveDex.Proofs.Lookup
import LiveDex.Proofs.Lowered
import LiveDex.Proofs.LoweredBundles
import LiveDex.Proofs.MethodDescriptor
import LiveDex.Proofs.MoreInput
import LiveDex.Proofs.ParameterScan
import LiveDex.Proofs.PoolSlots
import LiveDex.Proofs.Reading
import LiveDex.Proofs.ReferenceClosure
import LiveDex.Proofs.Relaxation
import LiveDex.Proofs.Residue
import LiveDex.Proofs.Resolution
import LiveDex.Proofs.RoundTrip
import LiveDex.Proofs.Session
import LiveDex.Proofs.Staging
import LiveDex.Proofs.Steadiness
import LiveDex.Proofs.Verdict
import LiveDex.Proofs.Words
import LiveDex.Reader
import LiveDex.Record
import LiveDex.Settings.Basic
import LiveDex.Settings.Decimal
import LiveDex.Settings.Scan
import LiveDex.Staging
import LiveDex.Text.ModifiedUtf8
import LiveDex.Text.Numeral
import LiveDex.Text.Quoted
import LiveDex.Text.Unprintable
import LiveDex.Text.Utf8
import LiveDex.Volume
import LiveDex.Workspace
