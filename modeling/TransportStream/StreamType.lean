/-!
# Stream types

The stream type of an elementary stream is a code of eight bits. The codes with a standard
meaning have names, which decide the label. Of the codes without one, those below 0x80 are
reserved and the others are private.
-/

namespace TransportStream

/-- What kind of data an elementary stream holds. -/
structure StreamType where
  /-- The code in the program map. -/
  code : Nat
  deriving DecidableEq, Repr

namespace StreamType

/-- Reserved. -/
@[match_pattern] def reserved : StreamType := ⟨0x00⟩

/-- ISO/IEC 11172-2 Video. -/
@[match_pattern] def mpeg1Video : StreamType := ⟨0x01⟩

/-- ISO/IEC 13818-2 Video. -/
@[match_pattern] def mpeg2Video : StreamType := ⟨0x02⟩

/-- ISO/IEC 11172-3 Audio. -/
@[match_pattern] def mpeg1Audio : StreamType := ⟨0x03⟩

/-- ISO/IEC 13818-3 Audio. -/
@[match_pattern] def mpeg2Audio : StreamType := ⟨0x04⟩

/-- ISO/IEC 13818-1 private_sections. -/
@[match_pattern] def privateSections : StreamType := ⟨0x05⟩

/-- ISO/IEC 13818-1 PES packets containing private data. -/
@[match_pattern] def privateData : StreamType := ⟨0x06⟩

/-- ISO/IEC 13522 MHEG. -/
@[match_pattern] def mheg : StreamType := ⟨0x07⟩

/-- ISO/IEC 13818-1 Annex A DSM-CC. -/
@[match_pattern] def dsmccAnnexA : StreamType := ⟨0x08⟩

/-- Rec. ITU-T H.222.1. -/
@[match_pattern] def h222 : StreamType := ⟨0x09⟩

/-- ISO/IEC 13818-6 type A. -/
@[match_pattern] def dsmccTypeA : StreamType := ⟨0x0a⟩

/-- ISO/IEC 13818-6 type B. -/
@[match_pattern] def dsmccTypeB : StreamType := ⟨0x0b⟩

/-- ISO/IEC 13818-6 type C. -/
@[match_pattern] def dsmccTypeC : StreamType := ⟨0x0c⟩

/-- ISO/IEC 13818-6 type D. -/
@[match_pattern] def dsmccTypeD : StreamType := ⟨0x0d⟩

/-- ISO/IEC 13818-1 auxiliary. -/
@[match_pattern] def auxiliary : StreamType := ⟨0x0e⟩

/-- ISO/IEC 13818-7 Audio with ADTS transport syntax. -/
@[match_pattern] def adtsAudio : StreamType := ⟨0x0f⟩

/-- ISO/IEC 14496-2 Visual. -/
@[match_pattern] def mpeg4Visual : StreamType := ⟨0x10⟩

/-- ISO/IEC 14496-3 Audio with the LATM transport syntax. -/
@[match_pattern] def latmAudio : StreamType := ⟨0x11⟩

/-- SL-packetized or FlexMux stream in PES packets. -/
@[match_pattern] def slPes : StreamType := ⟨0x12⟩

/-- SL-packetized or FlexMux stream in ISO/IEC 14496 sections. -/
@[match_pattern] def slSections : StreamType := ⟨0x13⟩

/-- ISO/IEC 13818-6 Synchronized Download Protocol. -/
@[match_pattern] def synchronizedDownload : StreamType := ⟨0x14⟩

/-- Metadata carried in PES packets. -/
@[match_pattern] def metadataPes : StreamType := ⟨0x15⟩

/-- Metadata carried in metadata_sections. -/
@[match_pattern] def metadataSections : StreamType := ⟨0x16⟩

/-- Metadata carried in ISO/IEC 13818-6 Data Carousel. -/
@[match_pattern] def metadataDataCarousel : StreamType := ⟨0x17⟩

/-- Metadata carried in ISO/IEC 13818-6 Object Carousel. -/
@[match_pattern] def metadataObjectCarousel : StreamType := ⟨0x18⟩

/-- Metadata carried in ISO/IEC 13818-6 Synchronized Download Protocol. -/
@[match_pattern] def metadataDownload : StreamType := ⟨0x19⟩

/-- MPEG-2 IPMP stream. -/
@[match_pattern] def mpeg2Ipmp : StreamType := ⟨0x1a⟩

/-- AVC video stream. -/
@[match_pattern] def avcVideo : StreamType := ⟨0x1b⟩

/-- ISO/IEC 14496-3 Audio, without using any additional transport syntax. -/
@[match_pattern] def mpeg4Audio : StreamType := ⟨0x1c⟩

/-- ISO/IEC 14496-17 Text. -/
@[match_pattern] def mpeg4Text : StreamType := ⟨0x1d⟩

/-- Auxiliary video stream as defined in ISO/IEC 23002-3. -/
@[match_pattern] def auxiliaryVideo : StreamType := ⟨0x1e⟩

/-- SVC video sub-bitstream of an AVC video stream. -/
@[match_pattern] def svcVideo : StreamType := ⟨0x1f⟩

/-- MVC video sub-bitstream of an AVC video stream. -/
@[match_pattern] def mvcVideo : StreamType := ⟨0x20⟩

/-- Video stream conforming to one or more profiles as defined in Rec. ITU-T T.800. -/
@[match_pattern] def jpeg2000Video : StreamType := ⟨0x21⟩

/-- Video stream for service-compatible stereoscopic 3D services. -/
@[match_pattern] def stereoscopicVideo : StreamType := ⟨0x22⟩

/-- ISO/IEC 14496-10 video stream conforming to one or more profiles. -/
@[match_pattern] def stereoscopicAvcVideo : StreamType := ⟨0x23⟩

/-- HEVC video stream. -/
@[match_pattern] def hevcVideo : StreamType := ⟨0x24⟩

/-- IPMP stream. -/
@[match_pattern] def ipmp : StreamType := ⟨0x7f⟩

/-- The label of a stream type, by its name or, if it has none, by its range. -/
def description : StreamType → String
  | reserved => "Reserved"
  | mpeg1Video => "ISO/IEC 11172-2 Video"
  | mpeg2Video => "ISO/IEC 13818-2 Video"
  | mpeg1Audio => "ISO/IEC 11172-3 Audio"
  | mpeg2Audio => "ISO/IEC 13818-3 Audio"
  | privateSections => "ISO/IEC 13818-1 private_sections"
  | privateData => "ISO/IEC 13818-1 PES packets containing private data"
  | mheg => "ISO/IEC 13522 MHEG"
  | dsmccAnnexA => "ISO/IEC 13818-1 Annex A DSM-CC"
  | h222 => "Rec. ITU-T H.222.1"
  | dsmccTypeA => "ISO/IEC 13818-6 type A"
  | dsmccTypeB => "ISO/IEC 13818-6 type B"
  | dsmccTypeC => "ISO/IEC 13818-6 type C"
  | dsmccTypeD => "ISO/IEC 13818-6 type D"
  | auxiliary => "ISO/IEC 13818-1 auxiliary"
  | adtsAudio => "ISO/IEC 13818-7 Audio with ADTS transport syntax"
  | mpeg4Visual => "ISO/IEC 14496-2 Visual"
  | latmAudio => "ISO/IEC 14496-3 Audio with the LATM transport syntax"
  | slPes => "SL-packetized or FlexMux stream in PES packets"
  | slSections => "SL-packetized or FlexMux stream in ISO/IEC 14496 sections"
  | synchronizedDownload => "ISO/IEC 13818-6 Synchronized Download Protocol"
  | metadataPes => "Metadata carried in PES packets"
  | metadataSections => "Metadata carried in metadata_sections"
  | metadataDataCarousel => "Metadata carried in ISO/IEC 13818-6 Data Carousel"
  | metadataObjectCarousel => "Metadata carried in ISO/IEC 13818-6 Object Carousel"
  | metadataDownload => "Metadata carried in ISO/IEC 13818-6 Synchronized Download Protocol"
  | mpeg2Ipmp => "MPEG-2 IPMP stream"
  | avcVideo => "AVC video stream"
  | mpeg4Audio => "ISO/IEC 14496-3 Audio, without using any additional transport syntax"
  | mpeg4Text => "ISO/IEC 14496-17 Text"
  | auxiliaryVideo => "Auxiliary video stream as defined in ISO/IEC 23002-3"
  | svcVideo => "SVC video sub-bitstream of an AVC video stream"
  | mvcVideo => "MVC video sub-bitstream of an AVC video stream"
  | jpeg2000Video =>
    "Video stream conforming to one or more profiles as defined in Rec. ITU-T T.800"
  | stereoscopicVideo => "Video stream for service-compatible stereoscopic 3D services"
  | stereoscopicAvcVideo => "ISO/IEC 14496-10 video stream conforming to one or more profiles"
  | hevcVideo => "HEVC video stream"
  | ipmp => "IPMP stream"
  | ⟨code⟩ => if code < 0x80 then "ISO/IEC 13818-1 Reserved" else "User Private"

end StreamType

end TransportStream
